import Mathlib.Data.List.Perm.Subperm
import Switchback.Protocols.Gemini
import Switchback.Protocols.Responses
import Switchback.Runtime.Collect

/-!
# Replaying a response

`responseToEvents` and `collectResponse` one after the other: what comes back of a response.
Only text and tool uses are replayed.
-/

namespace Switchback

open Lib

namespace ContentPart

def isReasoning : ContentPart → Bool
  | reasoning .. => true
  | _ => false

def isCitation : ContentPart → Bool
  | citation .. => true
  | _ => false

def isServerToolUse : ContentPart → Bool
  | serverToolUse .. => true
  | _ => false

end ContentPart

/-- The same text, reasoning, images, citations, server-tool uses, tool uses, usage and finish
reason. -/
structure SameReply (r r' : AiResponse) : Prop where
  text : r'.message.text = r.message.text
  reasoning : r'.message.content.filter ContentPart.isReasoning =
    r.message.content.filter ContentPart.isReasoning
  images : r'.message.content.filter ContentPart.isImage =
    r.message.content.filter ContentPart.isImage
  citations : r'.message.content.filter ContentPart.isCitation =
    r.message.content.filter ContentPart.isCitation
  serverToolUses : r'.message.content.filter ContentPart.isServerToolUse =
    r.message.content.filter ContentPart.isServerToolUse
  toolUses : r'.message.content.filter ContentPart.isToolUse =
    r.message.content.filter ContentPart.isToolUse
  usage : r'.usage = r.usage
  finishReason : r'.finishReason = r.finishReason

/-! ### The replay -/

/-- The tool map after the replay of `parts`, the next index being `index`. -/
def replayTools (toJsonString : Json → String) :
    ℕ → List ContentPart → OrdMap ℕ CollectedCall → OrdMap ℕ CollectedCall
  | _, [], m => m
  | index, .toolUse id name args :: parts, m =>
      replayTools toJsonString ((index + 1) % 2 ^ 32) parts
        (m.insert index { id := id, name := name, args := toJsonString args })
  | index, _ :: parts, m => replayTools toJsonString index parts m

variable (fromStr : String → Except String Json) (toJsonString : Json → String)

theorem toolUseEvents_isError (index : ℕ) (parts : List ContentPart) :
    ∀ event ∈ toolUseEvents toJsonString index parts, event.isError = false := by
  fun_induction toolUseEvents toJsonString index parts with
  | case1 => simp
  | case2 index id name args parts ih =>
    simp only [List.mem_cons]
    rintro event (rfl | rfl | rfl | h)
    · rfl
    · rfl
    · rfl
    · exact ih event h
  | case3 index part parts h ih => exact ih

theorem responseToEvents_isError (r : AiResponse) :
    ∀ event ∈ responseToEvents toJsonString r, event.isError = false := by
  unfold responseToEvents
  simp only [List.mem_append, List.mem_cons, List.not_mem_nil, or_false]
  rintro event (((rfl | h) | h) | rfl | rfl)
  · rfl
  · split at h
    · simp at h
    · rw [List.mem_singleton.mp h]
      rfl
  · exact toolUseEvents_isError toJsonString 0 _ event h
  · rfl
  · rfl

theorem gather_toolUseEvents (index : ℕ) (parts : List ContentPart) (st : CollectState) :
    ∃ n, (toolUseEvents toJsonString index parts).foldl gather st =
      { st with
        toolUses := replayTools toJsonString index parts st.toolUses, assembled := n } := by
  fun_induction toolUseEvents toJsonString index parts generalizing st with
  | case1 => exact ⟨st.assembled, rfl⟩
  | case2 index id name args parts ih =>
    rw [List.foldl_cons, List.foldl_cons, List.foldl_cons]
    obtain ⟨n, hn⟩ := ih (gather (gather (gather st
      (.toolCallStart { index := index, id := id, name := name }))
      (.toolCallArgsDelta index (toJsonString args))) (.toolCallEnd index))
    refine ⟨n, hn.trans ?_⟩
    -- a start and its only fragment amount to one insertion
    have htools : (gather (gather (gather st
        (.toolCallStart { index := index, id := id, name := name }))
        (.toolCallArgsDelta index (toJsonString args))) (.toolCallEnd index)).toolUses =
        st.toolUses.insert index { id := id, name := name, args := toJsonString args } := by
      simp only [gather_toolCallStart, gather_toolCallArgsDelta, gather_toolCallEnd,
        OrdMap.modify_insert_self, String.empty_append]
    rw [htools]
    rfl
  | case3 index part parts h ih =>
    obtain ⟨n, hn⟩ := ih st
    refine ⟨n, ?_⟩
    rw [hn]
    cases part with
    | toolUse id name args => exact absurd rfl (h id name args)
    | _ => rfl

/-- The content that comes back: the text and the tool uses of the map. -/
def replayedParts (content : List ContentPart) : List ContentPart :=
  (if partsText content = "" then [] else [.text (partsText content)]) ++
    (replayTools toJsonString 0 content OrdMap.empty).entries.map fun p =>
      .toolUse p.2.id p.2.name (parseArgs fromStr p.2.args)

/-- **What comes back of a response.** -/
theorem collect_replay (r : AiResponse) (reqId model : String) :
    collectResponse fromStr ((responseToEvents toJsonString r).map .ok) reqId model none =
      .ok
        { id := reqId
          model := model
          message := { role := .assistant,
                       content := replayedParts fromStr toJsonString r.message.content }
          finishReason := r.finishReason
          usage := r.usage } := by
  rw [collectResponse_gather fromStr (responseToEvents_isError toJsonString r)]
  unfold responseToEvents
  rw [List.foldl_append, List.foldl_append, List.foldl_append]
  -- the text event, if there is one, brings the content to the text
  have htext : ∃ n, (if r.message.text = "" then []
        else [AiStreamEvent.textDelta r.message.text]).foldl gather
          ([AiStreamEvent.messageStart r.id r.model].foldl gather {}) =
      ({ content := r.message.text, assembled := n } : CollectState) := by
    by_cases h : r.message.text = ""
    · rw [if_pos h, h]
      exact ⟨0, rfl⟩
    · rw [if_neg h]
      refine ⟨0 + Text.len r.message.text, ?_⟩
      simp only [List.foldl_cons, List.foldl_nil, gather_messageStart, gather_textDelta,
        String.empty_append]
  obtain ⟨n, hn⟩ := htext
  obtain ⟨k, hk⟩ := gather_toolUseEvents toJsonString 0 r.message.content
    ({ content := r.message.text, assembled := n } : CollectState)
  rw [hn, hk]
  simp only [List.foldl_cons, List.foldl_nil, gather_usageDelta, gather_messageEnd,
    CollectState.response, CollectState.parts, replayedParts, Message.text, if_true,
    List.nil_append, List.append_nil, Option.getD_some]
  rfl

/-! ### The tool map -/

/-- The calls that the replay announces. -/
def replayedCall : ContentPart → Option CollectedCall
  | .toolUse id name args => some { id := id, name := name, args := toJsonString args }
  | _ => none

theorem replayedCall_of_not_toolUse {part : ContentPart}
    (h : ∀ id name args, part = .toolUse id name args → False) :
    replayedCall toJsonString part = none ∧ part.isToolUse = false := by
  cases part with
  | toolUse id name args => exact absurd rfl (h id name args)
  | _ => exact ⟨rfl, rfl⟩

theorem replayTools_of_none {index : ℕ} {parts : List ContentPart} {m : OrdMap ℕ CollectedCall}
    (h : parts.countP ContentPart.isToolUse = 0) :
    replayTools toJsonString index parts m = m := by
  fun_induction replayTools toJsonString index parts m with
  | case1 => rfl
  | case2 index id name args parts m ih => exact absurd h (by simp [ContentPart.isToolUse])
  | case3 index part parts m hpart ih =>
    rw [List.countP_cons_of_neg (by simp [(replayedCall_of_not_toolUse toJsonString hpart).2])] at h
    exact ih h

theorem replayTools_entries {index : ℕ} {parts : List ContentPart} {m : OrdMap ℕ CollectedCall}
    (hkeys : ∀ p ∈ m.entries, p.1 < index)
    (hfew : index + parts.countP ContentPart.isToolUse ≤ 2 ^ 32) :
    (replayTools toJsonString index parts m).entries.map Prod.snd =
      m.entries.map Prod.snd ++ parts.filterMap (replayedCall toJsonString) := by
  fun_induction replayTools toJsonString index parts m with
  | case1 => simp
  | case2 index id name args parts m ih =>
    rw [List.countP_cons_of_pos rfl] at hfew
    have hentries : (m.insert index
        { id := id, name := name, args := toJsonString args }).entries =
        m.entries ++ [(index, { id := id, name := name, args := toJsonString args })] :=
      OrdMap.insertList_of_lt hkeys _
    have hcall : replayedCall toJsonString (.toolUse id name args) =
      some { id := id, name := name, args := toJsonString args } := rfl
    rw [List.filterMap_cons_some hcall]
    by_cases hlast : parts.countP ContentPart.isToolUse = 0
    · -- the counter may wrap here, and is not used again
      rw [replayTools_of_none toJsonString hlast, hentries, List.map_append]
      have hnil : parts.filterMap (replayedCall toJsonString) = [] := by
        rw [List.filterMap_eq_nil_iff]
        intro part hpart
        have := List.countP_eq_zero.mp hlast part hpart
        cases part with
        | toolUse id name args => exact absurd rfl this
        | _ => rfl
      rw [hnil]
      rfl
    · have hmod : (index + 1) % 2 ^ 32 = index + 1 := Nat.mod_eq_of_lt (by omega)
      rw [hmod] at ih
      rw [hmod, ih ?_ (by omega), hentries, List.map_append, List.append_assoc]
      · rfl
      · intro p hp
        rw [hentries, List.mem_append, List.mem_singleton] at hp
        rcases hp with hp | rfl
        · exact Nat.lt_succ_of_lt (hkeys p hp)
        · exact Nat.lt_succ_self index
  | case3 index part parts m hpart ih =>
    obtain ⟨hnone, htool⟩ := replayedCall_of_not_toolUse toJsonString hpart
    rw [List.countP_cons_of_neg (by simp [htool])] at hfew
    rw [List.filterMap_cons_none hnone, ih hkeys hfew]

theorem replayTools_keys_lt {index : ℕ} {parts : List ContentPart} {m : OrdMap ℕ CollectedCall}
    (hkeys : ∀ k ∈ m.keys, k < 2 ^ 32) (hindex : index < 2 ^ 32) :
    ∀ k ∈ (replayTools toJsonString index parts m).keys, k < 2 ^ 32 := by
  fun_induction replayTools toJsonString index parts m with
  | case1 => exact hkeys
  | case2 index id name args parts m ih =>
    refine ih (fun k hk => ?_) (Nat.mod_lt _ (by decide))
    rcases OrdMap.mem_keys_insert.mp hk with rfl | hk
    · exact hindex
    · exact hkeys k hk
  | case3 index part parts m hpart ih => exact ih hkeys hindex

theorem replayTools_length_le (parts : List ContentPart) :
    (replayTools toJsonString 0 parts OrdMap.empty).entries.length ≤ 2 ^ 32 := by
  have hlt := @replayTools_keys_lt toJsonString 0 parts OrdMap.empty
    (by simp [OrdMap.keys, OrdMap.empty]) (by decide)
  have hsub : (replayTools toJsonString 0 parts OrdMap.empty).keys ⊆ List.range (2 ^ 32) :=
    fun k hk => List.mem_range.mpr (hlt k hk)
  have hlen := ((OrdMap.nodup_keys _).subperm hsub).length_le
  rwa [OrdMap.keys, List.length_map, List.length_range] at hlen

/-! ### What comes back the same -/

/-- Only text and tool uses (or results), each argument read back from its printed form, and no
more tool uses than the counter can number. -/
structure Replayable (content : List ContentPart) : Prop where
  kept : ∀ part ∈ content, part.isReasoning = false ∧ part.isImage = false ∧
    part.isCitation = false ∧ part.isServerToolUse = false
  readBack : ∀ id name args, .toolUse id name args ∈ content →
    parseArgs fromStr (toJsonString args) = args
  few : content.countP ContentPart.isToolUse ≤ 2 ^ 32

theorem filter_replayedParts {p : ContentPart → Bool} (content : List ContentPart)
    (htext : ∀ text, p (.text text) = false)
    (htool : ∀ id name args, p (.toolUse id name args) = false) :
    (replayedParts fromStr toJsonString content).filter p = [] := by
  rw [List.filter_eq_nil_iff]
  unfold replayedParts
  intro part hpart
  rcases List.mem_append.mp hpart with h | h
  · split at h
    · simp at h
    · rw [List.mem_singleton.mp h, htext]
      exact Bool.false_ne_true
  · obtain ⟨q, -, rfl⟩ := List.mem_map.mp h
    rw [htool]
    exact Bool.false_ne_true

theorem filter_isToolUse_replayedParts (content : List ContentPart) :
    (replayedParts fromStr toJsonString content).filter ContentPart.isToolUse =
      (replayTools toJsonString 0 content OrdMap.empty).entries.map fun p =>
        .toolUse p.2.id p.2.name (parseArgs fromStr p.2.args) := by
  unfold replayedParts
  rw [List.filter_append]
  have htext : (if partsText content = "" then []
      else [ContentPart.text (partsText content)]).filter ContentPart.isToolUse = [] := by
    split <;> rfl
  rw [htext, List.nil_append, List.filter_eq_self]
  intro part hpart
  obtain ⟨q, -, rfl⟩ := List.mem_map.mp hpart
  rfl

theorem partsText_replayedParts (content : List ContentPart) :
    partsText (replayedParts fromStr toJsonString content) = partsText content := by
  have htools (l : List (ℕ × CollectedCall)) :
      (l.map fun p => ContentPart.toolUse p.2.id p.2.name
        (parseArgs fromStr p.2.args)).filterMap ContentPart.asText = [] := by
    rw [List.filterMap_eq_nil_iff]
    intro part hpart
    obtain ⟨q, -, rfl⟩ := List.mem_map.mp hpart
    rfl
  generalize ht : partsText content = t
  unfold partsText replayedParts
  rw [List.filterMap_append, htools, List.append_nil, ht]
  by_cases h : t = ""
  · rw [if_pos h, h]
    rfl
  · rw [if_neg h]
    exact String.empty_append

/-- The announced calls, read back, are the tool uses exactly when every argument reads back. -/
theorem map_replayedCall_eq_iff (content : List ContentPart) :
    ((content.filterMap (replayedCall toJsonString)).map fun c =>
        ContentPart.toolUse c.id c.name (parseArgs fromStr c.args)) =
        content.filter ContentPart.isToolUse ↔
      ∀ id name args, .toolUse id name args ∈ content →
        parseArgs fromStr (toJsonString args) = args := by
  induction content with
  | nil => simp
  | cons part content ih =>
    cases part with
    | toolUse id name args =>
      have hcall : replayedCall toJsonString (.toolUse id name args) =
        some { id := id, name := name, args := toJsonString args } := rfl
      rw [List.filterMap_cons_some hcall, List.filter_cons_of_pos rfl, List.map_cons,
        List.cons_eq_cons, ih]
      simp only [ContentPart.toolUse.injEq, List.mem_cons, true_and]
      constructor
      · rintro ⟨hargs, hrest⟩ id' name' args' (⟨rfl, rfl, rfl⟩ | h)
        · exact hargs
        · exact hrest id' name' args' h
      · intro h
        exact ⟨h id name args (.inl ⟨rfl, rfl, rfl⟩), fun i n a ha => h i n a (.inr ha)⟩
    | _ =>
      rw [List.filterMap_cons_none rfl, List.filter_cons_of_neg (by simp [ContentPart.isToolUse]),
        ih]
      simp

/-- The tool uses come back exactly when every argument reads back and the counter does not
wrap. -/
theorem toolUses_replayed_iff (content : List ContentPart) :
    (replayedParts fromStr toJsonString content).filter ContentPart.isToolUse =
        content.filter ContentPart.isToolUse ↔
      (∀ id name args, .toolUse id name args ∈ content →
        parseArgs fromStr (toJsonString args) = args) ∧
      content.countP ContentPart.isToolUse ≤ 2 ^ 32 := by
  rw [filter_isToolUse_replayedParts]
  have hmap (hfew : content.countP ContentPart.isToolUse ≤ 2 ^ 32) :
      ((replayTools toJsonString 0 content OrdMap.empty).entries.map fun p =>
        ContentPart.toolUse p.2.id p.2.name (parseArgs fromStr p.2.args)) =
        (content.filterMap (replayedCall toJsonString)).map fun c =>
          ContentPart.toolUse c.id c.name (parseArgs fromStr c.args) := by
    have h := @replayTools_entries toJsonString 0 content OrdMap.empty
      (by simp [OrdMap.empty]) (by omega)
    have hempty : (OrdMap.empty : OrdMap ℕ CollectedCall).entries = [] := rfl
    rw [hempty, List.map_nil, List.nil_append] at h
    rw [← h, List.map_map]
    rfl
  constructor
  · intro heq
    have hfew : content.countP ContentPart.isToolUse ≤ 2 ^ 32 := by
      have hlen := congrArg List.length heq
      rw [List.length_map, ← List.countP_eq_length_filter] at hlen
      rw [← hlen]
      exact replayTools_length_le toJsonString content
    rw [hmap hfew] at heq
    exact ⟨(map_replayedCall_eq_iff fromStr toJsonString content).mp heq, hfew⟩
  · rintro ⟨hread, hfew⟩
    rw [hmap hfew]
    exact (map_replayedCall_eq_iff fromStr toJsonString content).mpr hread

/-- A response that comes back the same has none of the parts that the replay leaves out. -/
theorem kept_of_sameReply {r r' : AiResponse} {reqId model : String}
    (h : collectResponse fromStr ((responseToEvents toJsonString r).map .ok) reqId model none =
      .ok r') (hsame : SameReply r r') :
    ∀ part ∈ r.message.content, part.isReasoning = false ∧ part.isImage = false ∧
      part.isCitation = false ∧ part.isServerToolUse = false := by
  rw [collect_replay] at h
  obtain rfl := Except.ok.inj h
  obtain ⟨-, hreason, himg, hcite, hserver, -, -, -⟩ := hsame
  rw [filter_replayedParts fromStr toJsonString r.message.content (fun _ => rfl)
    (fun _ _ _ => rfl)] at hreason himg hcite hserver
  refine fun part hpart => ⟨?_, ?_, ?_, ?_⟩
  · exact Bool.eq_false_iff.mpr (List.filter_eq_nil_iff.mp hreason.symm part hpart)
  · exact Bool.eq_false_iff.mpr (List.filter_eq_nil_iff.mp himg.symm part hpart)
  · exact Bool.eq_false_iff.mpr (List.filter_eq_nil_iff.mp hcite.symm part hpart)
  · exact Bool.eq_false_iff.mpr (List.filter_eq_nil_iff.mp hserver.symm part hpart)

/-- **When a replayed response comes back the same**: exactly when it has none of the parts that
the replay leaves out, its arguments survive printing and its tool uses can be numbered. -/
theorem replay_same_iff (r : AiResponse) (reqId model : String) :
    (∃ r', collectResponse fromStr ((responseToEvents toJsonString r).map .ok) reqId model none =
        .ok r' ∧ SameReply r r') ↔
      Replayable fromStr toJsonString r.message.content := by
  constructor
  · rintro ⟨r', hr', hsame⟩
    have hkept := kept_of_sameReply fromStr toJsonString hr' hsame
    rw [collect_replay] at hr'
    obtain rfl := Except.ok.inj hr'
    obtain ⟨hread, hfew⟩ :=
      (toolUses_replayed_iff fromStr toJsonString r.message.content).mp hsame.toolUses
    exact ⟨hkept, hread, hfew⟩
  · rintro ⟨hkept, hread, hfew⟩
    refine ⟨_, collect_replay fromStr toJsonString r reqId model, ?_⟩
    have hnone (p : ContentPart → Bool) (hp : ∀ part ∈ r.message.content, p part = false)
        (htext : ∀ text, p (.text text) = false)
        (htool : ∀ id name args, p (.toolUse id name args) = false) :
        (replayedParts fromStr toJsonString r.message.content).filter p =
          r.message.content.filter p := by
      rw [filter_replayedParts fromStr toJsonString r.message.content htext htool, eq_comm,
        List.filter_eq_nil_iff]
      intro part hpart
      rw [hp part hpart]
      exact Bool.false_ne_true
    exact
      { text := partsText_replayedParts fromStr toJsonString r.message.content
        reasoning := hnone _ (fun p hp => (hkept p hp).1) (fun _ => rfl) (fun _ _ _ => rfl)
        images := hnone _ (fun p hp => (hkept p hp).2.1) (fun _ => rfl) (fun _ _ _ => rfl)
        citations := hnone _ (fun p hp => (hkept p hp).2.2.1) (fun _ => rfl) (fun _ _ _ => rfl)
        serverToolUses := hnone _ (fun p hp => (hkept p hp).2.2.2) (fun _ => rfl)
          (fun _ _ _ => rfl)
        toolUses := (toolUses_replayed_iff fromStr toJsonString r.message.content).mpr
          ⟨hread, hfew⟩
        usage := rfl
        finishReason := rfl }

/-- An Anthropic answer with a signed thought. -/
def thinkingBody : Json :=
  Json.mkObj
    [("id", .str "msg_1"), ("model", .str "claude"), ("stop_reason", .str "end_turn"),
      ("content", .arr
        [Json.mkObj [("type", .str "thinking"), ("thinking", .str "hm"), ("signature", .str "sig")],
          Json.mkObj [("type", .str "text"), ("text", .str "Hi")]])]

/-- A Responses answer with a cited sentence, an image and a web search. -/
def searchBody : Json :=
  Json.mkObj
    [("id", .str "resp_1"), ("model", .str "gpt"), ("status", .str "completed"),
      ("output", .arr
        [Json.mkObj [("type", .str "web_search_call"), ("id", .str "ws_1")],
          Json.mkObj [("type", .str "image_generation_call"), ("result", .str "aGk=")],
          Json.mkObj
            [("type", .str "message"),
              ("content", .arr
                [Json.mkObj
                  [("text", .str "Hi"),
                    ("annotations", .arr
                      [Json.mkObj
                        [("type", .str "url_citation"), ("url", .str "https://a.example")]])]])]])]

/-- The thought of the first answer, and the search, the image and the citation of the second, do
not come back. -/
theorem replay_loses_parts :
    (∃ r, parseAnthropicResponse (fun name => name) thinkingBody = .ok r ∧
      ∀ fromStr toJsonString reqId model,
        ¬ ∃ r', collectResponse fromStr ((responseToEvents toJsonString r).map .ok) reqId model
          none = .ok r' ∧ SameReply r r') ∧
    (∃ r, parseOpenAiResponsesResponse (fun text => .ok (.str text)) searchBody = .ok r ∧
      ∀ fromStr toJsonString reqId model,
        ¬ ∃ r', collectResponse fromStr ((responseToEvents toJsonString r).map .ok) reqId model
          none = .ok r' ∧ SameReply r r') := by
  refine ⟨⟨{ id := "msg_1"
             model := "claude"
             message := { role := .assistant,
                          content := [.reasoning "hm" (some "sig"), .text "Hi"] }
             finishReason := .stop
             usage := {} }, by decide +kernel, ?_⟩,
    ⟨{ id := "resp_1"
       model := "gpt"
       message := { role := .assistant,
                    content :=
                      [.serverToolUse "ws_1" "web_search" .null,
                        .image (.inlineBase64 "image/png" "aGk=") none, .text "Hi",
                        .citation "https://a.example" none none] }
       finishReason := .stop
       usage := {} }, by decide +kernel, ?_⟩⟩
  · rintro fromStr toJsonString reqId model ⟨r', hr', hsame⟩
    have h := kept_of_sameReply fromStr toJsonString hr' hsame _ List.mem_cons_self
    exact absurd h.1 (by decide)
  · rintro fromStr toJsonString reqId model ⟨r', hr', hsame⟩
    have h := kept_of_sameReply fromStr toJsonString hr' hsame _ List.mem_cons_self
    exact absurd h.2.2.2 (by decide)

end Switchback
