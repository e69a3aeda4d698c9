import BoolSearch.Proofs.Encodings
import BoolSearch.Proofs.MemberOrder
import BoolSearch.Proofs.Partition
import BoolSearch.Proofs.Runs

namespace BoolSearch

open Json (Distinct Fits maxRoom)
open Json.Decoder (IgnoresOrder Variant Field)

namespace Json

theorem Decoder.ignoresOrder_names {α : Type} (all : List α) (name : α → String) :
    IgnoresOrder (oneOf (all.map fun a => .const (name a) a)) := by
  refine ignoresOrder_oneOf fun variant hm => ?_
  obtain ⟨a, _, rfl⟩ := List.mem_map.mp hm
  exact ignoresOrder_unit a

end Json

section Order

theorem TokenKind.ignoresOrder_decoder : IgnoresOrder decoder := by
  apply Json.Decoder.ignoresOrder_oneOf
  simp only [List.forall_mem_cons]
  exact ⟨Json.Decoder.ignoresOrder_unit _, (Json.Decoder.ignoresOrder_names _ _).map _,
    (Json.Decoder.ignoresOrder_names _ _).map _, Json.Decoder.ignoresOrder_unit _,
    Json.Decoder.ignoresOrder_unit _, Json.Decoder.ignoresOrder_unit _,
    Json.Decoder.ignoresOrder_unit _, nofun⟩

theorem Json.Decoder.ignoresOrder_pair {α β γ σ : Type} {name name' : String} {get : σ → Option α}
    {set : σ → α → σ} {get' : σ → Option β} {set' : σ → β → σ} {decoder : Decoder α}
    {decoder' : Decoder β} (h : IgnoresOrder decoder) (h' : IgnoresOrder decoder')
    (apart : ∀ draft a, get' (set draft a) = get' draft)
    (apart' : ∀ draft b, get (set' draft b) = get draft)
    (both : ∀ draft a b, set' (set draft a) b = set (set' draft b) a) (draft : σ)
    (finished : σ → Option γ) :
    IgnoresOrder
      (record [.of name get set decoder, .of name' get' set' decoder'] draft finished) := by
  apply ignoresOrder_record
  · simpa using Field.independent_of apart apart' both
  · simp only [List.forall_mem_cons]
    exact ⟨h.field _ _ _, h'.field _ _ _, nofun⟩

theorem Span.ignoresOrder_decoder : IgnoresOrder decoder := by
  apply Json.Decoder.ignoresOrder_pair Json.Decoder.ignoresOrder_nat Json.Decoder.ignoresOrder_nat
  all_goals intros; rfl

theorem Token.ignoresOrder_decoder : IgnoresOrder decoder := by
  apply Json.Decoder.ignoresOrder_pair TokenKind.ignoresOrder_decoder Span.ignoresOrder_decoder
  all_goals intros; rfl

theorem Violation.ignoresOrder_decoder : IgnoresOrder decoder := by
  have kind : IgnoresOrder ViolationKind.decoder := Json.Decoder.ignoresOrder_names _ _
  apply Json.Decoder.ignoresOrder_pair kind Json.Decoder.ignoresOrder_nat
  all_goals intros; rfl

theorem Highlight.ignoresOrder_acceptedDecoder : IgnoresOrder acceptedDecoder := by
  apply Json.Decoder.ignoresOrder_record
  · exact List.pairwise_singleton _ _
  · simp only [List.forall_mem_cons]
    exact ⟨(Json.Decoder.ignoresOrder_list Token.ignoresOrder_decoder).field _ _ _, nofun⟩

theorem Highlight.ignoresOrder_rejectedDecoder : IgnoresOrder rejectedDecoder := by
  apply Json.Decoder.ignoresOrder_pair Span.ignoresOrder_decoder Violation.ignoresOrder_decoder
  all_goals intros; rfl

theorem Highlight.ignoresOrder_decoder : IgnoresOrder decoder := by
  apply Json.Decoder.ignoresOrder_tagged
  intro word content hc
  split at hc
  case isTrue =>
    cases hc
    exact ignoresOrder_acceptedDecoder
  split at hc
  case isTrue =>
    cases hc
    exact ignoresOrder_rejectedDecoder
  case isFalse => cases hc

end Order

section Names

theorem TokenKind.distinct_toJson (kind : TokenKind) : Distinct kind.toJson := by
  cases kind
  case connective =>
    exact .ofMembers (by simp) (by simp [Connective.toJson, Json.distinct_ofString])
  case paren => exact .ofMembers (by simp) (by simp [Paren.toJson, Json.distinct_ofString])
  all_goals exact Json.distinct_ofString _

theorem Span.distinct_toJson (span : Span) : Distinct span.toJson :=
  .ofMembers (by simp) (by simp [Distinct.nat])

theorem Token.distinct_toJson (token : Token) : Distinct token.toJson :=
  .ofMembers (by simp) (by simp [token.kind.distinct_toJson, token.span.distinct_toJson])

theorem Violation.distinct_toJson (violation : Violation) : Distinct violation.toJson :=
  .ofMembers (by simp) (by simp [ViolationKind.toJson, Json.distinct_ofString, Distinct.nat])

theorem Highlight.distinct_toJson (highlight : Highlight) : Distinct highlight.toJson := by
  cases highlight
  case accepted tokens =>
    have each : Distinct (.arr (tokens.map Token.toJson)) :=
      .arr (List.forall_mem_map.mpr fun token _ => token.distinct_toJson)
    exact .ofMembers (by simp) (by simp [Json.distinct_ofString, each])
  case rejected raw violation =>
    exact .ofMembers (by simp)
      (by simp [Json.distinct_ofString, raw.distinct_toJson, violation.distinct_toJson])

end Names

section Sizes

variable {settings : Settings} {text : List Char} {highlight : Highlight} {raw : Span}
  {violation : Violation}

theorem IsBoundary.le {offset : Nat} (h : IsBoundary text offset) : offset ≤ byteLength text := by
  obtain ⟨before, after, rfl, rfl⟩ := h
  rw [byteLength_append]
  exact Nat.le_add_right _ _

theorem offset_le_of_highlight (h : settings.highlight text = .ok (.rejected raw violation)) :
    violation.offset ≤ byteLength text := by
  unfold Settings.highlight validate at h
  cases hl : settings.checkLength text with
  | error => simp [hl, bind, Except.bind] at h
  | ok =>
    cases hv : Reading.ofText settings.maxDepth text with
    | ok => simp [hl, hv, bind, Except.bind, pure, Except.pure] at h
    | error rejection =>
      simp only [hl, hv, bind, Except.bind, pure, Except.pure, Except.ok.injEq,
        Highlight.rejected.injEq] at h
      rw [← h.2]
      exact Nat.sub_le _ _

-- All places that are named in a highlight lie within its text.
theorem sized_of_highlight (h : settings.highlight text = .ok highlight)
    (small : byteLength text < wordLimit) : highlight.Sized := by
  obtain rfl | ⟨violation, rfl⟩ := highlight_cases h
  case inl =>
    refine .accepted fun token hm => ?_
    have ⟨start, stop⟩ := (Token.cuts_tokenize text).isBoundary hm
    exact ⟨start.le.trans_lt small, stop.le.trans_lt small⟩
  case inr =>
    have offset := offset_le_of_highlight h
    exact .rejected ⟨Nat.zero_lt_of_lt small, small⟩ (offset.trans_lt small)

end Sizes

namespace Json

theorem Fits.ofText_print {value : Json} (h : Fits maxRoom value) :
    Json.ofText value.print = .ok value := by
  have read : Json.value true maxRoom (value.print ++ []) = _ := h.readsBack.reads [] delimited_nil
  rw [List.append_nil] at read
  rw [Json.ofText, read]
  rfl

end Json

namespace Command

open Json (Distinct)

section Records

variable {settings : Settings} {text : List Char} {highlight : Highlight} {locale : Locale}

def messageValue (locale : Locale) (highlight : Highlight) : Json :=
  .ofOption .ofString (highlight.message? locale)

-- The members are in the order of their names. So the result does not stand as a highlight is
-- written, but it is read as one.
def jsonValue (locale : Locale) (text : List Char) (highlight : Highlight) : Json :=
  .obj [("input".toList, .str text), ("message".toList, messageValue locale highlight),
    ("result".toList, highlight.toJson.sorted)]

theorem jsonLine_eq (locale : Locale) (text : List Char) (highlight : Highlight) :
    jsonLine locale text highlight = (jsonValue locale text highlight).print := by
  have message : (messageValue locale highlight).sorted = messageValue locale highlight := by
    unfold messageValue
    cases highlight.message? locale <;> rfl
  rw [jsonLine, jsonValue, ← message]
  rfl

theorem fits_jsonValue (h : highlight.Sized) : Fits maxRoom (jsonValue locale text highlight) := by
  have message : Fits 4 (messageValue locale highlight) := by
    unfold messageValue
    cases highlight.message? locale
    case none => exact .null
    case some => exact .str _
  have fits : Fits 5 (jsonValue locale text highlight) := by
    refine .obj ?_
    simp only [List.forall_mem_cons]
    exact ⟨.str _, message, (Highlight.fits_toJson h).sorted, nofun⟩
  exact fits.mono (by decide)

theorem takes_result (highlight : Highlight) :
    Highlight.decoder.Takes highlight.toJson.sorted highlight :=
  Highlight.ignoresOrder_decoder.takes_sorted highlight.distinct_toJson highlight.takes_toJson

-- The line of a text that is not too long is a JSON object on a line of its own. The object holds
-- the text, what is wrong with it if something is, and what is read as the highlight of the text.
-- No text in memory has more bytes than a number of 64 bits can count.
theorem json_record_decodes {request : Request} (json : request.format = some .json)
    (shows : request.check = false) (small : byteLength text < wordLimit)
    (h : ∀ limit actual, settings.highlight text ≠ .error (.tooLong limit actual)) :
    ∃ highlight line message result, settings.highlight text = .ok highlight ∧
      (request.record settings text).line = some line ∧
      printed [request.record settings text] = line ++ ['\n'] ∧ (∀ c ∈ line, 0x20 ≤ c.toNat) ∧
      Json.ofText line = .ok (.obj
        [("input".toList, .str text), ("message".toList, message), ("result".toList, result)]) ∧
      Highlight.decoder.Takes result highlight ∧
      Highlight.decoder.ofText result.print = .ok highlight ∧
      (highlight.isAccepted → message = .null) ∧
      ∀ raw violation, highlight = .rejected raw violation →
        message = .ofString (violation.kind.message settings.locale) := by
  obtain ⟨highlight, e⟩ : ∃ highlight, settings.highlight text = .ok highlight := by
    have judged := settings.judges text
    generalize settings.checkText text = checked at judged
    generalize settings.highlight text = highlighted at judged h
    cases judged
    case tooLong  => exact absurd rfl (h _ _)
    case rejected => exact ⟨_, rfl⟩
    case accepted => exact ⟨_, rfl⟩
  have sized := sized_of_highlight e small
  have line : (request.record settings text).line =
      some (jsonLine settings.locale text highlight) := by
    simp [Request.record, Record.ofHighlight, shows, json, e, formatLine]
  have takes := takes_result highlight
  refine ⟨highlight, _, messageValue settings.locale highlight, _, e, line, ?printed, ?plain,
    ?object, takes, ?typed, ?accepted, ?rejected⟩
  case printed => simp [printed, line]
  case plain =>
    have plain := List.all_eq_true.mp (all_isPrintable_jsonLine settings.locale text highlight)
    exact fun c hc => of_decide_eq_true (plain c hc)
  case object =>
    rw [jsonLine_eq]
    exact (fits_jsonValue sized).ofText_print
  case typed =>
    have fits := (Highlight.fits_toJson sized).sorted.mono (by decide : 4 ≤ maxRoom)
    exact Highlight.agrees_decoder.ofText_print fits takes
  case accepted =>
    intro accepted
    cases highlight
    case accepted => rfl
    case rejected => cases accepted
  case rejected =>
    rintro raw violation rfl
    rfl

-- A text of two lines with a quote that is not closed, shown in another language.
theorem json_record_decodes_of_unclosed : ∃ line result,
    (Request.record { format := some .json } { locale := .ru } "a AND\n\"b".toList).line =
      some line ∧ (∀ c ∈ line, 0x20 ≤ c.toNat) ∧
    Json.ofText line = .ok (.obj [("input".toList, .str "a AND\n\"b".toList),
      ("message".toList, .ofString (ViolationKind.unterminatedQuote.message .ru)),
      ("result".toList, result)]) ∧
    Highlight.decoder.Takes result (.rejected ⟨0, 8⟩ ⟨.unterminatedQuote, 6⟩) := by
  have rejects : Settings.highlight { locale := .ru } "a AND\n\"b".toList =
      .ok (.rejected ⟨0, 8⟩ ⟨.unterminatedQuote, 6⟩) := by cbv
  have short (limit actual : Nat) : Settings.highlight { locale := .ru } "a AND\n\"b".toList ≠
      .error (.tooLong limit actual) := by
    rw [rejects]
    rintro ⟨⟩
  have json : Request.format { format := some .json } = some .json := rfl
  obtain ⟨highlight, line, message, result, e, shown, _, plain, object, takes, _, _, rejected⟩ :=
    json_record_decodes json rfl (by decide) short
  obtain rfl := Except.ok.inj (rejects.symm.trans e)
  obtain rfl := rejected _ _ rfl
  exact ⟨line, result, shown, plain, object, takes⟩

end Records

end Command

end BoolSearch
