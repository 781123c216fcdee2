import Mathlib.Algebra.BigOperators.Group.List.Basic
import Mathlib.Algebra.Order.BigOperators.Group.List
import Mathlib.Data.List.DropRight
import Mathlib.Tactic.Linarith

/-!
The history that a call sends to the model: the last messages of the conversation, as many as fit
the budget by the token counts of their rows. `V` are the JSON objects of tool calls.
-/

namespace Pivox.ModelHistory

def defaultModelContextBudget : ℕ := 22500
def defaultMaxHistoryRows : ℕ := 500

/- By the length in bytes. -/
def estimateTokens (text : String) : ℕ :=
  if text.utf8ByteSize = 0 then 0 else (text.utf8ByteSize + 3) / 4

/- The fields that the history reads. -/
structure MessagePart (V : Type) where
  type : String
  text : String
  state : String
  toolCallId : String
  toolName : String
  input : Option V
  output : Option V
  errorText : String
  deriving DecidableEq

structure InputMessage (V : Type) where
  role : String
  parts : List (MessagePart V)

inductive ModelPart where
  | text (text : String)
  | toolCall (id name inputJSON : String)
  | toolResult (callID name resultJSON : String) (isError : Bool)
  deriving DecidableEq

structure ModelMessage where
  role : String
  parts : List ModelPart
  deriving DecidableEq

/- The columns of ai_messages that the history reads; `parts` is the JSON. -/
structure Row where
  role : String
  parts : String
  tokenCount : ℕ
  deriving DecidableEq

/- protojson, through the JSONB column. -/
structure Codec (V : Type) where
  marshalParts : List (MessagePart V) → Option String
  unmarshalParts : String → Option (List (MessagePart V))
  marshalStruct : V → Option String

variable {V : Type}

def Codec.RoundTrips (codec : Codec V) : Prop :=
  ∀ parts json, codec.marshalParts parts = some json → codec.unmarshalParts json = some parts

/-! Writing -/

def extractText : List (MessagePart V) → String
  | [] => ""
  | p :: ps => if p.type = "text" then p.text ++ extractText ps else extractText ps

def dbRoleForInputMessage (role : String) : Except String String :=
  if role ∈ ["user", "assistant", "system", "tool"] then .ok role
  else .error "unexpected role reached persistence (validator should have rejected)"

def buildInputMessageParams (codec : Codec V) (message : InputMessage V) : Except String Row := do
  let role ← dbRoleForInputMessage message.role
  match codec.marshalParts message.parts with
  | none => throw "failed to marshal parts"
  | some json => return ⟨role, json, estimateTokens (extractText message.parts)⟩

/- The answer of the model, as one part. -/
def assistantPart (text : String) : MessagePart V :=
  ⟨"text", text, "done", "", "", none, none, ""⟩

def assistantMessageParams (codec : Codec V) (text : String) : Except String Row :=
  match codec.marshalParts [assistantPart text] with
  | none => .error "marshal assistant parts"
  | some json => .ok ⟨"assistant", json, estimateTokens text⟩

/- What writes a row. -/
inductive Written (codec : Codec V) (row : Row) : Prop where
  | inbound (message : InputMessage V) : buildInputMessageParams codec message = .ok row →
      Written codec row
  | assistant (text : String) : assistantMessageParams codec text = .ok row → Written codec row

/-- The messages of a conversation in the order of their sequence numbers; the last one is the one
that was just submitted. -/
structure Conversation (codec : Codec V) where
  earlier : List Row
  submitted : Row
  written : ∀ row ∈ earlier ++ [submitted], Written codec row

def Conversation.rows {codec : Codec V} (conv : Conversation codec) : List Row :=
  conv.earlier ++ [conv.submitted]

/-! Reading -/

def structToJSON (codec : Codec V) : Option V → String
  | none => ""
  | some s => (codec.marshalStruct s).getD ""

def toolNameOf (p : MessagePart V) : String :=
  if p.toolName = "" ∧ p.type.startsWith "tool-" then (p.type.drop "tool-".length).toString
  else p.toolName

def protoPartToModel (codec : Codec V) (p : MessagePart V) : Option ModelPart :=
  if p.type = "text" then some (.text p.text)
  else if p.type = "reasoning" then some (.text p.text)
  else if p.type.startsWith "tool-" || p.type = "dynamic-tool" then
    match p.state with
    | "input-available" =>
      some (.toolCall p.toolCallId (toolNameOf p) (structToJSON codec p.input))
    | "output-available" =>
      some (.toolResult p.toolCallId (toolNameOf p) (structToJSON codec p.output) false)
    | "output-error" => some (.toolResult p.toolCallId (toolNameOf p) p.errorText true)
    | _ => none
  else none

def partsOf (codec : Codec V) (row : Row) : List (MessagePart V) :=
  (codec.unmarshalParts row.parts).getD []

/- Without a part that the model understands, the JSON itself. -/
def dbMessageToModel (codec : Codec V) (row : Row) : ModelMessage :=
  let parts := (partsOf codec row).filterMap (protoPartToModel codec)
  if parts = [] ∧ row.parts.utf8ByteSize > 2 then ⟨row.role, [.text row.parts]⟩
  else ⟨row.role, parts⟩

def listMessagesNewestFirst (rows : List Row) (limit : ℕ) : List Row := rows.reverse.take limit

/- The rows up to the first that takes the running sum over the budget. -/
def keepWithin (budget : ℕ) : ℕ → List Row → List Row
  | _, [] => []
  | running, row :: rows =>
    if running + row.tokenCount > budget then []
    else row :: keepWithin budget (running + row.tokenCount) rows

def loadModelHistory (codec : Codec V) (rows : List Row) : List ModelMessage :=
  (keepWithin defaultModelContextBudget 0
    (listMessagesNewestFirst rows defaultMaxHistoryRows)).reverse.map (dbMessageToModel codec)

def partTokens : ModelPart → ℕ
  | .text text => estimateTokens text
  | .toolCall _ name inputJSON => estimateTokens name + estimateTokens inputJSON
  | .toolResult _ name resultJSON _ => estimateTokens name + estimateTokens resultJSON

def messageTokens (m : ModelMessage) : ℕ := (m.parts.map partTokens).sum

def estimateInputTokens (history : List ModelMessage) (systemPrompt : String) : ℕ :=
  estimateTokens systemPrompt + (history.map messageTokens).sum

/-! The counts of the rows are below the estimates -/

theorem estimateTokens_append_le (s t : String) :
    estimateTokens (s ++ t) ≤ estimateTokens s + estimateTokens t := by
  unfold estimateTokens
  rw [String.utf8ByteSize_append]
  split <;> split <;> split <;> omega

theorem extractText_le (codec : Codec V) (parts : List (MessagePart V)) :
    estimateTokens (extractText parts) ≤
      ((parts.filterMap (protoPartToModel codec)).map partTokens).sum := by
  induction parts with
  | nil => simp [extractText, estimateTokens]
  | cons p ps ih =>
    by_cases htext : p.type = "text"
    · have hpart : protoPartToModel codec p = some (.text p.text) := by
        rw [protoPartToModel, if_pos htext]
      rw [extractText, if_pos htext, List.filterMap_cons_some hpart, List.map_cons, List.sum_cons]
      have happend := estimateTokens_append_le p.text (extractText ps)
      change _ ≤ estimateTokens p.text + _
      omega
    · rw [extractText, if_neg htext]
      refine ih.trans ?_
      cases hpart : protoPartToModel codec p with
      | none => rw [List.filterMap_cons_none hpart]
      | some part =>
        rw [List.filterMap_cons_some hpart, List.map_cons, List.sum_cons]
        exact Nat.le_add_left _ _

/- The tokens of the text of a message. -/
def textTokens (codec : Codec V) (row : Row) : ℕ := estimateTokens (extractText (partsOf codec row))

theorem textTokens_le (codec : Codec V) (row : Row) :
    textTokens codec row ≤ messageTokens (dbMessageToModel codec row) := by
  have hle := extractText_le codec (partsOf codec row)
  unfold dbMessageToModel
  dsimp only
  split
  · rename_i hraw
    rw [hraw.1] at hle
    exact hle.trans (Nat.zero_le _)
  · exact hle

theorem Written.tokenCount {codec : Codec V} {row : Row} (hcodec : codec.RoundTrips)
    (h : Written codec row) : row.tokenCount = textTokens codec row := by
  cases h with
  | inbound message h =>
    unfold buildInputMessageParams at h
    cases hrole : dbRoleForInputMessage message.role with
    | error e =>
      rw [hrole] at h
      cases h
    | ok role =>
      rw [hrole] at h
      cases hjson : codec.marshalParts message.parts with
      | none =>
        simp only [hjson] at h
        cases h
      | some json =>
        simp only [hjson] at h
        cases h
        simp [textTokens, partsOf, hcodec _ _ hjson]
  | assistant text h =>
    unfold assistantMessageParams at h
    split at h
    · cases h
    · rename_i json hjson
      cases h
      simp [textTokens, partsOf, hcodec _ _ hjson, extractText, assistantPart]

/-! The walk -/

def tokenSum (rows : List Row) : ℕ := (rows.map (·.tokenCount)).sum

/-- The walk keeps the longest prefix whose sum is within the budget. -/
theorem keepWithin_spec (budget running : ℕ) (rows : List Row) : ∃ k ≤ rows.length,
    keepWithin budget running rows = rows.take k ∧
    (0 < k → running + tokenSum (rows.take k) ≤ budget) ∧
    ∀ j, k < j → j ≤ rows.length → budget < running + tokenSum (rows.take j) := by
  induction rows generalizing running with
  | nil => exact ⟨0, Nat.le_refl 0, rfl, fun h => absurd h (Nat.lt_irrefl 0), fun j hj hle =>
      absurd hle (Nat.not_le.mpr hj)⟩
  | cons row rows ih =>
    by_cases hover : running + row.tokenCount > budget
    · refine ⟨0, Nat.zero_le _, ?_, fun h => absurd h (Nat.lt_irrefl 0), fun j hj _ => ?_⟩
      · rw [keepWithin, if_pos hover, List.take_zero]
      · obtain ⟨j, rfl⟩ : ∃ i, j = i + 1 := ⟨j - 1, by omega⟩
        simp only [List.take_succ_cons, tokenSum, List.map_cons, List.sum_cons]
        omega
    · obtain ⟨k, hk, hkeep, hfits, hmax⟩ := ih (running + row.tokenCount)
      refine ⟨k + 1, Nat.succ_le_succ hk, ?_, fun _ => ?_, fun j hj hle => ?_⟩
      · rw [keepWithin, if_neg hover, hkeep, List.take_succ_cons]
      · simp only [List.take_succ_cons, tokenSum, List.map_cons, List.sum_cons]
        obtain rfl | hpos := Nat.eq_zero_or_pos k
        · simp
          omega
        · have hsum := hfits hpos
          rw [tokenSum] at hsum
          omega
      · obtain ⟨j, rfl⟩ : ∃ i, j = i + 1 := ⟨j - 1, by omega⟩
        have hsum := hmax j (by omega) (by simpa using hle)
        simp only [List.take_succ_cons, tokenSum, List.map_cons, List.sum_cons]
        rw [tokenSum] at hsum
        omega

variable {codec : Codec V}

/- The last messages of a conversation, as the model gets them. -/
def lastMessages (codec : Codec V) (rows : List Row) (k : ℕ) : List ModelMessage :=
  (rows.rtake k).map (dbMessageToModel codec)

theorem length_lastMessages {rows : List Row} {k : ℕ} (hk : k ≤ rows.length) :
    (lastMessages codec rows k).length = k := by
  rw [lastMessages, List.length_map, List.rtake, List.length_drop]
  omega

/- What the rows of the last messages have in tokens of their text. -/
def lastTextTokens (codec : Codec V) (rows : List Row) (k : ℕ) : ℕ :=
  ((rows.rtake k).map (textTokens codec)).sum

theorem lastTextTokens_le (codec : Codec V) (rows : List Row) (k : ℕ) (systemPrompt : String) :
    lastTextTokens codec rows k ≤ estimateInputTokens (lastMessages codec rows k) systemPrompt := by
  rw [lastTextTokens, estimateInputTokens, lastMessages, List.map_map]
  have hle : ((rows.rtake k).map (textTokens codec)).sum ≤
      ((rows.rtake k).map (messageTokens ∘ dbMessageToModel codec)).sum :=
    List.sum_le_sum fun row _ => textTokens_le codec row
  exact hle.trans (Nat.le_add_left _ _)

theorem estimate_mono (codec : Codec V) (rows : List Row) (systemPrompt : String) {j k : ℕ}
    (h : j ≤ k) : estimateInputTokens (lastMessages codec rows j) systemPrompt ≤
      estimateInputTokens (lastMessages codec rows k) systemPrompt := by
  have hsub : (rows.rtake j).Sublist (rows.rtake k) := by
    rw [List.rtake_eq_reverse_take_reverse, List.rtake_eq_reverse_take_reverse]
    exact (List.take_sublist_take_left h).reverse
  rw [estimateInputTokens, estimateInputTokens]
  refine Nat.add_le_add_left (List.Sublist.sum_le_sum ?_ fun _ _ => Nat.zero_le _) _
  exact (hsub.map _).map _

theorem tokenSum_newest (hcodec : codec.RoundTrips) (conv : Conversation codec) (k : ℕ) :
    tokenSum (conv.rows.reverse.take k) = lastTextTokens codec conv.rows k := by
  have hcount : ∀ row ∈ conv.rows.reverse.take k, row.tokenCount = textTokens codec row :=
    fun row hrow => Written.tokenCount hcodec
      (conv.written row (List.mem_reverse.mp (List.mem_of_mem_take hrow)))
  rw [tokenSum, List.map_congr_left hcount, lastTextTokens, List.rtake_eq_reverse_take_reverse,
    List.map_reverse, List.sum_reverse]

/-- What loadModelHistory keeps: as many of the last messages as their text lets it. -/
theorem loadModelHistory_spec (hcodec : codec.RoundTrips) (conv : Conversation codec) :
    ∃ k ≤ min conv.rows.length defaultMaxHistoryRows,
      loadModelHistory codec conv.rows = lastMessages codec conv.rows k ∧
      (0 < k → lastTextTokens codec conv.rows k ≤ defaultModelContextBudget) ∧
      ∀ j, k < j → j ≤ min conv.rows.length defaultMaxHistoryRows →
        defaultModelContextBudget < lastTextTokens codec conv.rows j := by
  obtain ⟨k, hk, hkeep, hfits, hmax⟩ := keepWithin_spec defaultModelContextBudget 0
    (listMessagesNewestFirst conv.rows defaultMaxHistoryRows)
  have hlength : (listMessagesNewestFirst conv.rows defaultMaxHistoryRows).length =
      min conv.rows.length defaultMaxHistoryRows := by
    rw [listMessagesNewestFirst, List.length_take, List.length_reverse, Nat.min_comm]
  rw [hlength] at hk hmax
  have htake : ∀ j ≤ min conv.rows.length defaultMaxHistoryRows,
      (listMessagesNewestFirst conv.rows defaultMaxHistoryRows).take j =
        conv.rows.reverse.take j := by
    intro j hj
    rw [listMessagesNewestFirst, List.take_take, Nat.min_eq_left (hj.trans (Nat.min_le_right _ _))]
  refine ⟨k, hk, ?_, fun hpos => ?_, fun j hj hle => ?_⟩
  · rw [loadModelHistory, hkeep, htake k hk, lastMessages, List.rtake_eq_reverse_take_reverse]
  · have hsum := hfits hpos
    rwa [htake k hk, tokenSum_newest hcodec, Nat.zero_add] at hsum
  · have hsum := hmax j hj hle
    rwa [htake j hle, tokenSum_newest hcodec, Nat.zero_add] at hsum

/-! The budget and the turn -/

/-- A history is the last `k` messages: it ends with the submitted one, its estimate is within the
budget unless it is that message alone, and it is the longest such up to the row limit. -/
structure KeepsTurn (conv : Conversation codec) (systemPrompt : String)
    (history : List ModelMessage) (k : ℕ) : Prop where
  length : k ≤ conv.rows.length
  suffix : history = lastMessages codec conv.rows k
  submitted : history.getLast? = some (dbMessageToModel codec conv.submitted)
  fits : 1 < k → estimateInputTokens history systemPrompt ≤ defaultModelContextBudget
  maximal : ∀ j, k < j → j ≤ min conv.rows.length defaultMaxHistoryRows →
    defaultModelContextBudget <
      estimateInputTokens (lastMessages codec conv.rows j) systemPrompt

/-- The text of the submitted message is within the budget, and of two last messages or more the
estimate is as soon as their text is. -/
structure TextDecides (conv : Conversation codec) (systemPrompt : String) : Prop where
  submitted : textTokens codec conv.submitted ≤ defaultModelContextBudget
  others : ∀ k, 1 < k → k ≤ min conv.rows.length defaultMaxHistoryRows →
    lastTextTokens codec conv.rows k ≤ defaultModelContextBudget →
    estimateInputTokens (lastMessages codec conv.rows k) systemPrompt ≤ defaultModelContextBudget

theorem rtake_one (conv : Conversation codec) : conv.rows.rtake 1 = [conv.submitted] := by
  rw [Conversation.rows, List.rtake_concat_succ, List.rtake_zero, List.nil_append]

theorem getLast_lastMessages (conv : Conversation codec) {k : ℕ} (hk : 0 < k) :
    (lastMessages codec conv.rows k).getLast? = some (dbMessageToModel codec conv.submitted) := by
  obtain ⟨k, rfl⟩ : ∃ i, k = i + 1 := ⟨k - 1, by omega⟩
  rw [lastMessages, Conversation.rows, List.rtake_concat_succ, List.map_append, List.map_singleton,
    List.getLast?_concat]

theorem length_rows_pos (conv : Conversation codec) : 0 < conv.rows.length := by
  rw [Conversation.rows, List.length_append, List.length_singleton]
  omega

theorem model_history_iff (hcodec : codec.RoundTrips) (conv : Conversation codec)
    (systemPrompt : String) :
    (∃ k, KeepsTurn conv systemPrompt (loadModelHistory codec conv.rows) k) ↔
      TextDecides conv systemPrompt := by
  obtain ⟨k, hk, hload, hfits, hmax⟩ := loadModelHistory_spec hcodec conv
  have hlength : k ≤ conv.rows.length := hk.trans (Nat.min_le_left _ _)
  have hone : lastTextTokens codec conv.rows 1 = textTokens codec conv.submitted := by
    rw [lastTextTokens, rtake_one, List.map_singleton, List.sum_singleton]
  constructor
  · rintro ⟨k', hkeeps⟩
    have hsame : k' = k := by
      rw [← length_lastMessages hkeeps.length, ← hkeeps.suffix, hload,
        length_lastMessages hlength]
    subst hsame
    have hpos : 0 < k' := by
      rw [Nat.pos_iff_ne_zero]
      rintro rfl
      have hlast := hkeeps.submitted
      rw [hload, lastMessages, List.rtake_zero] at hlast
      cases hlast
    refine ⟨?_, fun j hj hle htext => ?_⟩
    · rw [← hone]
      refine le_trans ?_ (hfits hpos)
      have hsub : (conv.rows.rtake 1).Sublist (conv.rows.rtake k') := by
        rw [List.rtake_eq_reverse_take_reverse, List.rtake_eq_reverse_take_reverse]
        exact (List.take_sublist_take_left hpos).reverse
      exact (hsub.map _).sum_le_sum fun _ _ => Nat.zero_le _
    · have hjk : j ≤ k' := by
        by_contra hlt
        exact absurd htext (Nat.not_le.mpr (hmax j (by omega) hle))
      have hest := hkeeps.fits (by omega)
      rw [hload] at hest
      exact (estimate_mono codec conv.rows systemPrompt hjk).trans hest
  · intro hdecides
    have hpos : 0 < k := by
      rw [Nat.pos_iff_ne_zero]
      rintro rfl
      have hover := hmax 1 Nat.zero_lt_one
        (Nat.le_min.mpr ⟨length_rows_pos conv, by decide⟩)
      rw [hone] at hover
      exact absurd hdecides.submitted (Nat.not_le.mpr hover)
    refine ⟨k, hlength, hload, ?_, fun hk' => ?_, fun j hj hle => ?_⟩
    · rw [hload]
      exact getLast_lastMessages conv hpos
    · rw [hload]
      exact hdecides.others k hk' hk (hfits hpos)
    · exact (hmax j hj hle).trans_le (lastTextTokens_le codec conv.rows j systemPrompt)

/-! Messages of one text -/

def textJson (text : String) : String :=
  "[\x7b\"text\": \"" ++ text ++ "\", \"type\": \"text\", \"state\": \"done\"\x7d]"

/- protojson on some messages of one text each, that JSON does not escape. -/
def Codec.ofTexts (texts : List String) : Codec Unit where
  marshalParts parts := (texts.find? fun t => parts = [assistantPart t]).map textJson
  unmarshalParts json := (texts.find? fun t => json = textJson t).map fun t => [assistantPart t]
  marshalStruct _ := some "\x7b\x7d"

theorem textJson_inj {s t : String} : textJson s = textJson t ↔ s = t := by
  unfold textJson
  rw [String.append_left_inj, String.append_right_inj]

theorem Codec.ofTexts_roundTrips (texts : List String) : (Codec.ofTexts texts).RoundTrips := by
  intro parts json hjson
  obtain ⟨t, hfind, rfl⟩ := Option.map_eq_some_iff.mp hjson
  have hparts : parts = [assistantPart t] := by simpa using List.find?_some hfind
  have hmem := List.mem_of_find?_eq_some hfind
  change (texts.find? fun s => textJson t = textJson s).map _ = _
  cases hback : texts.find? fun s => textJson t = textJson s with
  | none => exact absurd (List.find?_eq_none.mp hback t hmem) (by simp)
  | some s =>
    have hsame : t = s := textJson_inj.mp (by simpa using List.find?_some hback)
    rw [hparts, hsame, Option.map_some]

def userRow (text : String) : Row := ⟨"user", textJson text, estimateTokens text⟩

theorem written_user {texts : List String} {text : String} (h : text ∈ texts) :
    Written (Codec.ofTexts texts) (userRow text) := by
  refine .inbound ⟨"user", [assistantPart text]⟩ ?_
  have hmarshal : (Codec.ofTexts texts).marshalParts [assistantPart text] =
      some (textJson text) := by
    change (texts.find? fun t => decide ([assistantPart text] = [assistantPart t])).map _ = _
    cases hfind : texts.find? fun t =>
        decide ([assistantPart (V := Unit) text] = [assistantPart t]) with
    | none => exact absurd (List.find?_eq_none.mp hfind text h) (by simp)
    | some t =>
      have hsame := List.find?_some hfind
      simp only [decide_eq_true_eq, List.cons.injEq, assistantPart, MessagePart.mk.injEq,
        and_true, true_and] at hsame
      rw [← hsame, Option.map_some]
  have hrole : dbRoleForInputMessage "user" = .ok "user" := if_pos (by simp)
  have htext : extractText [assistantPart (V := Unit) text] = text := by
    simp [extractText, assistantPart]
  unfold buildInputMessageParams
  rw [hrole, hmarshal, htext]
  rfl

/- A greeting and a question. -/
def greeting : Conversation (Codec.ofTexts ["Hi", "What is new?"]) where
  earlier := [userRow "Hi"]
  submitted := userRow "What is new?"
  written row hrow := by
    simp only [List.cons_append, List.nil_append, List.mem_cons, List.not_mem_nil, or_false]
      at hrow
    obtain rfl | rfl := hrow
    · exact written_user (by simp)
    · exact written_user (by simp)

theorem model_history_greeting :
    (∃ k, KeepsTurn greeting "" (loadModelHistory (Codec.ofTexts ["Hi", "What is new?"])
      greeting.rows) k) ∧ TextDecides greeting "" := by
  have hdecides : TextDecides greeting "" := by
    refine ⟨by decide +kernel, fun k hk hle _ => ?_⟩
    obtain rfl : k = 2 := Nat.le_antisymm (hle.trans (Nat.min_le_left _ _)) hk
    decide +kernel
  exact ⟨(model_history_iff (Codec.ofTexts_roundTrips _) greeting "").mpr hdecides, hdecides⟩

def letters : ℕ → String
  | 0 => ""
  | n + 1 => letters n ++ "a"

theorem utf8ByteSize_letters (n : ℕ) : (letters n).utf8ByteSize = n := by
  induction n with
  | zero => rfl
  | succ n ih =>
    rw [letters, String.utf8ByteSize_append, ih]
    rfl

/- One message of 90001 bytes. -/
def longMessage : Conversation (Codec.ofTexts [letters 90001]) where
  earlier := []
  submitted := userRow (letters 90001)
  written row hrow := by
    rw [List.nil_append, List.mem_singleton] at hrow
    rw [hrow]
    exact written_user (List.mem_singleton_self _)

theorem loadModelHistory_over (codec : Codec V) {row : Row}
    (h : defaultModelContextBudget < row.tokenCount) : loadModelHistory codec [row] = [] := by
  have hwalk : keepWithin defaultModelContextBudget 0 [row] = [] := by
    rw [keepWithin, if_pos (by omega)]
  change ((keepWithin defaultModelContextBudget 0 [row]).reverse.map _) = []
  rw [hwalk, List.reverse_nil, List.map_nil]

theorem long_message_dropped : ¬ ∀ (V : Type) (codec : Codec V), codec.RoundTrips →
    ∀ (conv : Conversation codec) (systemPrompt : String),
      ∃ k, KeepsTurn conv systemPrompt (loadModelHistory codec conv.rows) k := by
  intro h
  obtain ⟨k, hkeeps⟩ := h Unit _ (Codec.ofTexts_roundTrips _) longMessage ""
  have hcount : (userRow (letters 90001)).tokenCount = 22501 := by
    rw [userRow, estimateTokens, utf8ByteSize_letters]
    rfl
  have hrows : longMessage.rows = [userRow (letters 90001)] := List.nil_append _
  have hover : defaultModelContextBudget < (userRow (letters 90001)).tokenCount := by
    rw [hcount]
    decide
  have hlast := hkeeps.submitted
  rw [hrows, loadModelHistory_over _ hover] at hlast
  cases hlast

end Pivox.ModelHistory
