import BoolSearch.Proofs.Partition
import Mathlib.Order.Interval.Set.Defs
import Mathlib.Order.Monotone.Defs
import Mathlib.Order.Nat

namespace BoolSearch

-- The bytes at which the characters of a text start, the first one at byte `start`, and the byte
-- behind the last one.
def offsets (start : Nat) : List Char → List Nat
  | []        => [start]
  | c :: text => start :: offsets (start + c.utf8Size) text

variable {text part : List Char} {start stop last place : Nat}

theorem byteLength_eq_size (text : List Char) : byteLength text = text.utf8Encode.size := by
  induction text
  case nil => rfl
  case cons c text hi =>
    have single : [c].utf8Encode.size = c.utf8Size := by simp [List.utf8Encode]
    rw [List.utf8Encode_cons, ByteArray.size_append, byteLength_cons, hi, single]

-- By induction on the text: the pass has gone over just the characters in front of the place.
theorem offsets_getElem? (h : place ≤ text.length) :
    (offsets start text)[place]? = some (start + byteOffset text place) := by
  induction text generalizing start place
  case nil =>
    cases Nat.le_zero.mp h
    rfl
  case cons c text hi =>
    cases place
    case zero => simp [offsets]
    case succ place =>
      have rest : (offsets (start + c.utf8Size) text)[place]? =
          some (start + c.utf8Size + byteOffset text place) := hi (Nat.le_of_succ_le_succ h)
      simpa [offsets, byteOffset, Nat.add_assoc] using rest

theorem length_offsets : (offsets start text).length = text.length + 1 := by
  induction text generalizing start
  case nil     => rfl
  case cons hi => simp [offsets, hi]

theorem offsets_getD (text : List Char) (place : Nat) :
    (offsets 0 text)[place]?.getD (byteLength text) = byteOffset text place := by
  by_cases h : place ≤ text.length
  case pos => simp [offsets_getElem? h]
  case neg =>
    have behind : (offsets 0 text).length ≤ place := by
      rw [length_offsets]
      omega
    rw [List.getElem?_eq_none behind, byteOffset_of_length_le (by omega)]
    rfl

theorem take_append_extract (h : start ≤ stop) :
    text.take start ++ text.extract start stop = text.take stop := by
  rw [List.extract_eq_take_drop, ← List.take_add, Nat.add_sub_cancel' h]

theorem extract_append_extract (h : start ≤ stop) (h' : stop ≤ last) :
    text.extract start stop ++ text.extract stop last = text.extract start last := by
  have whole : text.take start ++ (text.extract start stop ++ text.extract stop last) =
      text.take start ++ text.extract start last := by
    rw [← List.append_assoc, take_append_extract h, take_append_extract h',
      take_append_extract (Nat.le_trans h h')]
  exact List.append_cancel_left whole

theorem extract_of_length_le (h : text.length ≤ start) : text.extract start stop = [] := by
  rw [List.extract_eq_take_drop, List.drop_of_length_le h, List.take_nil]

theorem byteOffset_add_byteLength_extract (h : start ≤ stop) :
    byteOffset text start + byteLength (text.extract start stop) = byteOffset text stop := by
  rw [byteOffset, ← byteLength_append, take_append_extract h, byteOffset]

theorem byteOffset_lt (h : start < stop) (hs : start < text.length) :
    byteOffset text start < byteOffset text stop := by
  have ne : text.extract start stop ≠ [] := by
    rw [List.extract_eq_take_drop, ← List.length_pos_iff, List.length_take, List.length_drop]
    omega
  have := byteLength_pos ne
  have : byteOffset text start + byteLength (text.extract start stop) = byteOffset text stop :=
    byteOffset_add_byteLength_extract (Nat.le_of_lt h)
  omega

-- The bytes of two places are in order if the places are, and at the end of the text or behind it.
theorem byteOffset_le_iff : byteOffset text start ≤ byteOffset text stop ↔
    start ≤ stop ∨ text.length ≤ start ∧ text.length ≤ stop := by
  constructor
  case mp =>
    intro h
    by_cases lt : stop < start ∧ stop < text.length
    case pos => exact absurd h (Nat.not_le.mpr (byteOffset_lt lt.1 lt.2))
    case neg => omega
  case mpr =>
    rintro (h | ⟨h, h'⟩)
    · exact Nat.le.intro (byteOffset_add_byteLength_extract h)
    · rw [byteOffset_of_length_le h, byteOffset_of_length_le h']

theorem sliceChars?_eq_some_iff : sliceChars? text start stop = some part ↔
    (start ≤ stop ∨ text.length ≤ start ∧ text.length ≤ stop) ∧
      text.extract start stop = part := by
  rw [sliceChars?, ← byteOffset_le_iff, List.drop_take, ← List.extract_eq_take_drop]
  split
  case isTrue h  => simp [h]
  case isFalse h => simp [h]

theorem sliceChars?_of_le (h : start ≤ stop) :
    sliceChars? text start stop = some (text.extract start stop) :=
  sliceChars?_eq_some_iff.mpr ⟨.inl h, rfl⟩

theorem sliceBytes?_of_le (h : start ≤ stop) :
    sliceBytes? text (byteOffset text start) (byteOffset text stop) =
      some (text.extract start stop) := by
  have whole : text.take start ++ (text.extract start stop ++ text.drop stop) = text := by
    rw [← List.append_assoc, take_append_extract h, List.take_append_drop]
  have cut := sliceBytes?_append (text.take start) (text.extract start stop) (text.drop stop)
  rw [whole] at cut
  rwa [← byteOffset_add_byteLength_extract h]

theorem sliceChars?_eq_sliceBytes? (text : List Char) (start stop : Nat) :
    sliceChars? text start stop =
      sliceBytes? text (byteOffset text start) (byteOffset text stop) := by
  by_cases h : byteOffset text start ≤ byteOffset text stop
  case neg => rw [sliceChars?, if_neg h, sliceBytes?, if_neg h]
  case pos =>
    obtain h | ⟨h, h'⟩ := byteOffset_le_iff.mp h
    case inl => rw [sliceChars?_of_le h, sliceBytes?_of_le h]
    case inr =>
      -- Both places have the byte of the end, as one place has.
      have same : byteOffset text start = byteOffset text stop := by
        rw [byteOffset_of_length_le h, byteOffset_of_length_le h']
      rw [same, sliceBytes?_of_le (Nat.le_refl stop), extract_of_length_le h',
        sliceChars?_eq_some_iff]
      exact ⟨.inr ⟨h, h'⟩, extract_of_length_le h⟩

theorem utf8Encode_of_sliceChars? (hs : sliceChars? text start stop = some part) :
    part.utf8Encode = text.utf8Encode.extract (byteOffset text start) (byteOffset text stop) := by
  obtain ⟨h | ⟨h, h'⟩, rfl⟩ := sliceChars?_eq_some_iff.mp hs
  case inl =>
    have whole : text.utf8Encode = (text.take start).utf8Encode ++
        (text.extract start stop).utf8Encode ++ (text.drop stop).utf8Encode := by
      rw [← List.utf8Encode_append, ← List.utf8Encode_append, take_append_extract h,
        List.take_append_drop]
    have front : byteOffset text start = (text.take start).utf8Encode.size := byteLength_eq_size _
    have both : byteOffset text stop =
        ((text.take start).utf8Encode ++ (text.extract start stop).utf8Encode).size := by
      rw [← List.utf8Encode_append, take_append_extract h, ← byteLength_eq_size, byteOffset]
    rw [whole, both, ByteArray.extract_append_size_left,
      ByteArray.extract_append_eq_right front ByteArray.size_append]
  case inr =>
    rw [byteOffset_of_length_le h, byteOffset_of_length_le h', extract_of_length_le h,
      ByteArray.extract_same]
    rfl

theorem strictMonoOn_byteOffset (text : List Char) :
    StrictMonoOn (byteOffset text) (Set.Iic text.length) :=
  fun _ _ _ hb lt => byteOffset_lt lt (Nat.lt_of_lt_of_le lt hb)

-- What the places of a text are in bytes, up to its end and behind it, and what can be cut out of
-- the text between two places.
theorem places_and_slices (text : List Char) :
    (∀ place, (offsets 0 text)[place]?.getD (byteLength text) = byteOffset text place) ∧
    StrictMonoOn (byteOffset text) (Set.Iic text.length) ∧
    (∀ place, byteOffset text place = (text.take place).utf8Encode.size) ∧
    (∀ place, text.length ≤ place → byteOffset text place = text.utf8Encode.size) ∧
    (∀ start stop, sliceChars? text start stop =
      sliceBytes? text (byteOffset text start) (byteOffset text stop)) ∧
    (∀ start stop part, sliceChars? text start stop = some part ↔
      (start ≤ stop ∨ text.length ≤ start ∧ text.length ≤ stop) ∧
        text.extract start stop = part) ∧
    (∀ start stop part, sliceChars? text start stop = some part →
      part.utf8Encode = text.utf8Encode.extract (byteOffset text start) (byteOffset text stop)) ∧
    (∀ start stop last, start ≤ stop → stop ≤ last → ∃ front back,
      sliceChars? text start stop = some front ∧ sliceChars? text stop last = some back ∧
        sliceChars? text start last = some (front ++ back)) := by
  refine ⟨offsets_getD text, strictMonoOn_byteOffset text, fun _ => byteLength_eq_size _, ?_,
    sliceChars?_eq_sliceBytes? text, fun _ _ _ => sliceChars?_eq_some_iff,
    fun _ _ _ => utf8Encode_of_sliceChars?, ?_⟩
  · intro place h
    rw [byteOffset_of_length_le h, byteLength_eq_size]
  · intro start stop last h h'
    refine ⟨_, _, sliceChars?_of_le h, sliceChars?_of_le h', ?_⟩
    rw [extract_append_extract h h', sliceChars?_of_le (Nat.le_trans h h')]

-- Two bytes, three bytes and one byte, and a slice that goes on behind the end.
theorem places_and_slices_of_wide :
    byteOffset "é“b".toList 7 = "é“b".toList.utf8Encode.size ∧
    ['“'].utf8Encode = "é“b".toList.utf8Encode.extract 2 5 ∧
    ∃ front back, sliceChars? "é“b".toList 1 2 = some front ∧
      sliceChars? "é“b".toList 2 7 = some back ∧
        sliceChars? "é“b".toList 1 7 = some (front ++ back) :=
  have ⟨_, _, _, behind, _, _, bytes, whole⟩ := places_and_slices "é“b".toList
  ⟨behind 7 (by decide), bytes 1 2 ['“'] (by decide), whole 1 2 7 (by decide) (by decide)⟩

end BoolSearch
