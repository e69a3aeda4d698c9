import BoolSearch.Json.Value
import BoolSearch.Text.Bytes

namespace BoolSearch

namespace Json

-- The text ends too early, it is not JSON, or it is JSON but no value of the expected type.
inductive Fault
  | truncated
  | malformed
  | mismatch
  deriving DecidableEq, Repr

abbrev Scanned (α : Type) := Except Fault (α × List Char)

def Scanned.andThen (scanned : Scanned α) (next : α → List Char → Scanned β) : Scanned β :=
  match scanned with
  | .error fault  => .error fault
  | .ok (a, rest) => next a rest

def Scanned.map (f : α → β) (scanned : Scanned α) : Scanned β :=
  scanned.andThen fun a rest => .ok (f a, rest)

def isSpace (c : Char) : Bool :=
  c == ' ' || c == '\t' || c == '\n' || c == '\r'

def skipSpace (text : List Char) : List Char :=
  text.dropWhile isSpace

def faultAt : List Char → Fault
  | [] => .truncated
  | _  => .malformed

def expect : List Char → List Char → Except Fault (List Char)
  | [], text                 => .ok text
  | _ :: _, []               => .error .truncated
  | e :: expected, c :: text => if e = c then expect expected text else .error .malformed

def hexValue? (c : Char) : Option Nat :=
  if '0' ≤ c && c ≤ '9' then some (c.toNat - '0'.toNat)
  else if 'a' ≤ c && c ≤ 'f' then some (c.toNat - 'a'.toNat + 10)
  else if 'A' ≤ c && c ≤ 'F' then some (c.toNat - 'A'.toNat + 10)
  else none

-- Four hexadecimal digits. A text of less than four bytes ends too early, whatever it holds.
def hex4 : List Char → Scanned Nat
  | a :: b :: c :: d :: text =>
    match hexValue? a, hexValue? b, hexValue? c, hexValue? d with
    | some a, some b, some c, some d => .ok (((a * 16 + b) * 16 + c) * 16 + d, text)
    | _, _, _, _                     => .error .malformed
  | text => .error (if byteLength text < 4 then .truncated else .malformed)

def shortEscape? (c : Char) : Option Char :=
  if c = '"' || c = '\\' || c = '/' then some c
  else if c = 'b' then some '\x08'
  else if c = 'f' then some '\x0C'
  else if c = 'n' then some '\n'
  else if c = 'r' then some '\r'
  else if c = 't' then some '\t'
  else none

def isHighSurrogate (n : Nat) : Bool := 0xD800 ≤ n && n ≤ 0xDBFF

def isLowSurrogate (n : Nat) : Bool := 0xDC00 ≤ n && n ≤ 0xDFFF

-- The second half of a pair of surrogates, which stands for one character.
def lowSurrogate (high : Nat) : List Char → Scanned Char
  | '\\' :: 'u' :: text =>
    (hex4 text).andThen fun low rest =>
      if isLowSurrogate low then
        .ok (Char.ofNat (0x10000 + (high - 0xD800) * 0x400 + (low - 0xDC00)), rest)
      else .error .malformed
  | [] | ['\\'] => .error .truncated
  | _           => .error .malformed

-- The escape behind a backslash. In a text that is only passed over a surrogate needs no
-- partner.
def escapeSequence (strict : Bool) : List Char → Scanned Char
  | []          => .error .truncated
  | 'u' :: text =>
    (hex4 text).andThen fun n rest =>
      if strict && isLowSurrogate n then .error .malformed
      else if strict && isHighSurrogate n then lowSurrogate n rest
      else .ok (Char.ofNat n, rest)
  | c :: text =>
    match shortEscape? c with
    | some c => .ok (c, text)
    | none   => .error .malformed

theorem Scanned.eq_ok_of_andThen {scanned : Scanned α} {next : α → List Char → Scanned β}
    {result : β × List Char} (h : scanned.andThen next = .ok result) :
    ∃ a rest, scanned = .ok (a, rest) ∧ next a rest = .ok result := by
  unfold andThen at h
  split at h
  · simp at h
  next a rest => exact ⟨a, rest, rfl, h⟩

theorem length_hex4 {text rest : List Char} {n : Nat} (h : hex4 text = .ok (n, rest)) :
    rest.length < text.length := by
  unfold hex4 at h
  split at h
  · split at h <;> simp at h
    simp [← h.2]
    omega
  · simp at h

theorem length_lowSurrogate {high : Nat} {text rest : List Char} {c : Char}
    (h : lowSurrogate high text = .ok (c, rest)) : rest.length < text.length := by
  unfold lowSurrogate at h
  split at h
  · obtain ⟨low, _, e, h⟩ := Scanned.eq_ok_of_andThen h
    have := length_hex4 e
    split at h <;> simp at h
    simp [← h.2]
    omega
  all_goals simp at h

theorem length_escapeSequence {strict : Bool} {text rest : List Char} {c : Char}
    (h : escapeSequence strict text = .ok (c, rest)) : rest.length < text.length := by
  unfold escapeSequence at h
  split at h
  · simp at h
  · obtain ⟨n, _, e, h⟩ := Scanned.eq_ok_of_andThen h
    have := length_hex4 e
    split at h
    · simp at h
    · split at h
      · have := length_lowSurrogate h
        simp
        omega
      · simp at h
        simp [← h.2]
        omega
  · split at h <;> simp at h
    simp [← h.2]

def stringRest (strict : Bool) : List Char → Scanned (List Char)
  | []        => .error .truncated
  | c :: text =>
    if c = '"' then .ok ([], text)
    else if c = '\\' then
      match _h : escapeSequence strict text with
      | .error fault  => .error fault
      | .ok (c, rest) => (stringRest strict rest).map (c :: ·)
    else if c.toNat < 0x20 then .error .malformed
    else (stringRest strict text).map (c :: ·)
termination_by text => text.length
decreasing_by
  · have := length_escapeSequence _h
    simp
    omega
  · simp

end Json

end BoolSearch
