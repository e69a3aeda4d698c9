import BoolSearch.Highlight
import BoolSearch.Proofs.Decoders
import Mathlib.Data.List.Nodup

namespace BoolSearch

open Json (Fits maxRoom)
open Json.Decoder (Agrees Takes Variant Field)

namespace Json

variable {α : Type} {all : List α} {name : α → String} {a : α} {room : Nat}

theorem fits_ofString (s : String) : Fits room (.ofString s) :=
  .str _

theorem fits_ofMembers {members : List (String × Json)}
    (h : ∀ member ∈ members, Fits room member.2) : Fits (room + 1) (.ofMembers members) := by
  refine .obj fun member hm => ?_
  obtain ⟨member', hm', rfl⟩ := List.mem_map.mp hm
  exact h member' hm'

namespace Decoder

theorem agrees_names : Agrees (oneOf (all.map fun a => .const (name a) a)) := by
  refine agrees_oneOf fun variant hm => ?_
  obtain ⟨a, _, rfl⟩ := List.mem_map.mp hm
  exact agrees_unit a

theorem takes_name (hm : a ∈ all) (distinct : (all.map fun a => (name a).toList).Nodup) :
    (oneOf (all.map fun a => .const (name a) a)).Takes (.ofString (name a)) a := by
  intro emptyIs
  have found : all.find? (fun b => (name b).toList == (name a).toList) = some a := by
    cases e : all.find? (fun b => (name b).toList == (name a).toList) with
    | none => exact absurd (List.find?_eq_none.mp e a hm) (by simp)
    | some b =>
      have same : (name b).toList = (name a).toList := by simpa using List.find?_some e
      rw [List.inj_on_of_nodup_map distinct (List.mem_of_find?_eq_some e) hm same]
  simp only [oneOf, ofString, Variant.find?, List.find?_map, Function.comp_def, Variant.const,
    found]
  rfl

theorem takes_list {decoder : Decoder α} {encode : α → Json} {values : List α}
    (h : ∀ a ∈ values, decoder.Takes (encode a) a) :
    (list decoder).Takes (.arr (values.map encode)) values := by
  intro emptyIs
  induction values
  case nil => rfl
  case cons a values hi =>
    have head := h a (by simp) emptyIs
    have tail : (values.map encode).mapM (decoder.ofJson emptyIs) = some values :=
      hi fun b hm => h b (List.mem_cons_of_mem _ hm)
    simp [list, List.mapM_cons, head, tail]

-- An alternative that is named by a tag in front of its fields.
theorem takes_tagged {tag word : List Char} {pick : List Char → Option (Decoder α)}
    {members : List (List Char × Json)} (content : Decoder α) (hp : pick word = some content)
    (others : ∀ member ∈ members, member.1 ≠ tag) (taken : content.Takes (.obj members) a) :
    (tagged tag pick).Takes (.obj ((tag, .str word) :: members)) a := by
  have tags : ((tag, Json.str word) :: members).filter (·.1 == tag) = [(tag, .str word)] := by
    rw [List.filter_cons_of_pos (by simp), List.filter_eq_nil_iff.mpr (by simpa using others)]
  have rest : ((tag, Json.str word) :: members).filter (·.1 != tag) = members := by
    rw [List.filter_cons_of_neg (by simp), List.filter_eq_self.mpr (by simpa using others)]
  intro emptyIs
  simp only [tagged, tags, rest, hp]
  exact taken true

end Decoder

end Json

namespace Connective

theorem agrees_decoder : Agrees decoder :=
  Json.Decoder.agrees_names

theorem takes_toJson (connective : Connective) : decoder.Takes connective.toJson connective :=
  Json.Decoder.takes_name (by cases connective <;> decide) (by decide)

end Connective

namespace Paren

theorem agrees_decoder : Agrees decoder :=
  Json.Decoder.agrees_names

theorem takes_toJson (paren : Paren) : decoder.Takes paren.toJson paren :=
  Json.Decoder.takes_name (by cases paren <;> decide) (by decide)

end Paren

namespace ViolationKind

theorem agrees_decoder : Agrees decoder :=
  Json.Decoder.agrees_names

theorem takes_toJson (kind : ViolationKind) : decoder.Takes kind.toJson kind :=
  Json.Decoder.takes_name (mem_all kind) (by decide)

end ViolationKind

namespace Locale

theorem agrees_decoder : Agrees decoder :=
  Json.Decoder.agrees_names

theorem takes_toJson (locale : Locale) : decoder.Takes locale.toJson locale :=
  Json.Decoder.takes_name (by cases locale <;> decide) (by decide)

end Locale

namespace TokenKind

theorem agrees_decoder : Agrees decoder := by
  apply Json.Decoder.agrees_oneOf
  simp only [List.forall_mem_cons]
  exact ⟨Json.Decoder.agrees_unit _, Connective.agrees_decoder.map _, Paren.agrees_decoder.map _,
    Json.Decoder.agrees_unit _, Json.Decoder.agrees_unit _, Json.Decoder.agrees_unit _,
    Json.Decoder.agrees_unit _, nofun⟩

theorem takes_toJson (kind : TokenKind) : decoder.Takes kind.toJson kind := by
  intro emptyIs
  cases kind
  case connective connective =>
    have takes := connective.takes_toJson emptyIs
    simp [decoder, toJson, Json.ofMembers, Json.Decoder.oneOf, Variant.find?, Variant.const,
      Variant.of, name, takes, Json.Decoder.map]
  case paren paren =>
    have takes := paren.takes_toJson emptyIs
    simp [decoder, toJson, Json.ofMembers, Json.Decoder.oneOf, Variant.find?, Variant.const,
      Variant.of, name, takes, Json.Decoder.map]
  case blank  => rfl
  case key    => rfl
  case equals => rfl
  case quoted => rfl
  case bare   => rfl

theorem fits_toJson (kind : TokenKind) : Fits 1 kind.toJson := by
  cases kind
  case connective connective =>
    exact Json.fits_ofMembers (List.forall_mem_singleton.mpr (Json.fits_ofString connective.name))
  case paren paren =>
    exact Json.fits_ofMembers (List.forall_mem_singleton.mpr (Json.fits_ofString paren.name))
  case blank  => exact Json.fits_ofString _
  case key    => exact Json.fits_ofString _
  case equals => exact Json.fits_ofString _
  case quoted => exact Json.fits_ofString _
  case bare   => exact Json.fits_ofString _

end TokenKind

namespace Span

structure Sized (span : Span) : Prop where
  start : span.start < wordLimit
  stop : span.stop < wordLimit

theorem agrees_decoder : Agrees decoder := by
  apply Json.Decoder.agrees_record
  simp only [List.forall_mem_cons]
  exact ⟨Json.Decoder.agrees_nat.field _ _ _, Json.Decoder.agrees_nat.field _ _ _, nofun⟩

theorem takes_toJson (span : Span) : decoder.Takes span.toJson span :=
  fun _ => rfl

theorem fits_toJson {span : Span} (h : span.Sized) : Fits 1 span.toJson := by
  apply Json.fits_ofMembers
  simp only [List.forall_mem_cons]
  exact ⟨.nat h.start, .nat h.stop, nofun⟩

end Span

namespace Token

theorem agrees_decoder : Agrees decoder := by
  apply Json.Decoder.agrees_record
  simp only [List.forall_mem_cons]
  exact ⟨TokenKind.agrees_decoder.field _ _ _, Span.agrees_decoder.field _ _ _, nofun⟩

theorem takes_toJson (token : Token) : decoder.Takes token.toJson token := by
  intro emptyIs
  have kind := token.kind.takes_toJson emptyIs
  have span := token.span.takes_toJson emptyIs
  simp [decoder, toJson, Json.ofMembers, Json.Decoder.record, Json.Decoder.ofMembers, Field.find?,
    Field.of, kind, span, Draft.complete?]

theorem fits_toJson {token : Token} (h : token.span.Sized) : Fits 2 token.toJson := by
  apply Json.fits_ofMembers
  simp only [List.forall_mem_cons]
  exact ⟨token.kind.fits_toJson, Span.fits_toJson h, nofun⟩

end Token

namespace Violation

theorem agrees_decoder : Agrees decoder := by
  apply Json.Decoder.agrees_record
  simp only [List.forall_mem_cons]
  exact ⟨ViolationKind.agrees_decoder.field _ _ _, Json.Decoder.agrees_nat.field _ _ _, nofun⟩

theorem takes_toJson (violation : Violation) : decoder.Takes violation.toJson violation := by
  intro emptyIs
  have kind := violation.kind.takes_toJson emptyIs
  simp [decoder, toJson, Json.ofMembers, Json.Decoder.record, Json.Decoder.ofMembers, Field.find?,
    Field.of, kind, Json.Decoder.nat, Json.Decoder.scalar, Draft.complete?]

theorem fits_toJson {violation : Violation} (h : violation.offset < wordLimit) :
    Fits 1 violation.toJson := by
  apply Json.fits_ofMembers
  simp only [List.forall_mem_cons]
  exact ⟨Json.fits_ofString _, .nat h, nofun⟩

end Violation

namespace Settings

structure Sized (settings : Settings) : Prop where
  length : settings.maxInputLength < wordLimit
  depth : settings.maxDepth < wordLimit

theorem agrees_decoder : Agrees decoder := by
  apply Json.Decoder.agrees_record
  simp only [List.forall_mem_cons]
  exact ⟨Json.Decoder.agrees_nat.field _ _ _, Json.Decoder.agrees_nat.field _ _ _,
    Locale.agrees_decoder.field _ _ _, nofun⟩

theorem takes_toJson (settings : Settings) : decoder.Takes settings.toJson settings := by
  intro emptyIs
  have locale := settings.locale.takes_toJson emptyIs
  simp [decoder, toJson, Json.ofMembers, Json.Decoder.record, Json.Decoder.ofMembers, Field.find?,
    Field.of, locale, Json.Decoder.nat, Json.Decoder.scalar, Draft.complete]

theorem fits_toJson {settings : Settings} (h : settings.Sized) : Fits 1 settings.toJson := by
  apply Json.fits_ofMembers
  simp only [List.forall_mem_cons]
  exact ⟨.nat h.length, .nat h.depth, Json.fits_ofString _, nofun⟩

end Settings

namespace Highlight

inductive Sized : Highlight → Prop
  | accepted {tokens : List Token} (h : ∀ token ∈ tokens, token.span.Sized) :
    Sized (accepted tokens)
  | rejected {raw : Span} {violation : Violation} (hr : raw.Sized)
    (hv : violation.offset < wordLimit) : Sized (rejected raw violation)

theorem agrees_decoder : Agrees decoder :=
  Json.Decoder.agrees_tagged _ _

theorem takes_toJson (highlight : Highlight) : decoder.Takes highlight.toJson highlight := by
  cases highlight
  case accepted tokens =>
    have taken : (Json.Decoder.list Token.decoder).Takes (.arr (tokens.map Token.toJson)) tokens :=
      Json.Decoder.takes_list fun token _ => token.takes_toJson
    refine Json.Decoder.takes_tagged acceptedDecoder rfl (by simp) fun emptyIs => ?_
    have taken := taken emptyIs
    simp [acceptedDecoder, Json.Decoder.record, Json.Decoder.ofMembers, Field.find?, Field.of,
      taken]
  case rejected raw violation =>
    refine Json.Decoder.takes_tagged rejectedDecoder rfl (by simp) fun emptyIs => ?_
    have raw := raw.takes_toJson emptyIs
    have violation := violation.takes_toJson emptyIs
    simp [rejectedDecoder, Json.Decoder.record, Json.Decoder.ofMembers, Field.find?, Field.of, raw,
      violation, RejectedDraft.complete?]

theorem fits_toJson {highlight : Highlight} (h : highlight.Sized) : Fits 4 highlight.toJson := by
  cases h
  case accepted tokens h =>
    apply Json.fits_ofMembers
    simp only [List.forall_mem_cons]
    refine ⟨Json.fits_ofString _, .arr fun item hm => ?_, nofun⟩
    obtain ⟨token, hm', rfl⟩ := List.mem_map.mp hm
    exact Token.fits_toJson (h token hm')
  case rejected hr hv =>
    apply Json.fits_ofMembers
    simp only [List.forall_mem_cons]
    exact ⟨Json.fits_ofString _, (Span.fits_toJson hr).mono (by decide),
      (Violation.fits_toJson hv).mono (by decide), nofun⟩

end Highlight

-- Highlights, settings, tokens and violations are read back from their texts.
theorem json_round_trip :
    (∀ highlight : Highlight, highlight.Sized →
      Highlight.decoder.ofText highlight.toJson.print = .ok highlight) ∧
    (∀ settings : Settings, settings.Sized →
      Settings.ofText settings.toJson.print = .ok settings) ∧
    (∀ token : Token, token.span.Sized → Token.decoder.ofText token.toJson.print = .ok token) ∧
    (∀ violation : Violation, violation.offset < wordLimit →
      Violation.decoder.ofText violation.toJson.print = .ok violation) := by
  refine ⟨fun highlight h => ?_, fun settings h => ?_, fun token h => ?_, fun violation h => ?_⟩
  · exact Highlight.agrees_decoder.ofText_print
      ((Highlight.fits_toJson h).mono (by decide)) highlight.takes_toJson
  · rw [Settings.ofText, Settings.agrees_decoder.ofText_print
      ((Settings.fits_toJson h).mono (by decide)) settings.takes_toJson]
    rfl
  · exact Token.agrees_decoder.ofText_print
      ((Token.fits_toJson h).mono (by decide)) token.takes_toJson
  · exact Violation.agrees_decoder.ofText_print
      ((Violation.fits_toJson h).mono (by decide)) violation.takes_toJson

-- The largest numbers of 64 bits, and tokens of both sorts that are objects.
theorem json_round_trip_of_largest :
    let span : Span := ⟨0, 18446744073709551615⟩
    let violation : Violation := ⟨.unterminatedQuote, 18446744073709551615⟩
    let settings : Settings := ⟨18446744073709551615, 0, .ru⟩
    let tokens : List Token := [⟨.connective .or, span⟩, ⟨.paren .closing, span⟩]
    Highlight.decoder.ofText (Highlight.accepted tokens).toJson.print = .ok (.accepted tokens) ∧
    Highlight.decoder.ofText (Highlight.rejected span violation).toJson.print =
      .ok (.rejected span violation) ∧
    Settings.ofText settings.toJson.print = .ok settings ∧
    Token.decoder.ofText (Token.mk .key span).toJson.print = .ok ⟨.key, span⟩ ∧
    Violation.decoder.ofText violation.toJson.print = .ok violation := by
  intro span violation settings tokens
  have sized : span.Sized := ⟨by decide, by decide⟩
  have ⟨highlights, settings_back, tokens_back, violations⟩ := json_round_trip
  exact ⟨highlights _ (.accepted (by simpa [tokens] using sized)),
    highlights _ (.rejected sized (by decide)), settings_back _ ⟨by decide, by decide⟩,
    tokens_back _ sized, violations _ (by decide)⟩

end BoolSearch
