namespace BoolSearch

def byteLength : List Char → Nat
  | []        => 0
  | c :: text => c.utf8Size + byteLength text

@[simp] theorem byteLength_nil : byteLength [] = 0 := rfl

@[simp] theorem byteLength_cons (c : Char) (text : List Char) :
    byteLength (c :: text) = c.utf8Size + byteLength text := rfl

@[simp] theorem byteLength_append (before after : List Char) :
    byteLength (before ++ after) = byteLength before + byteLength after := by
  induction before with
  | nil => simp
  | cons c before ih => simp [ih, Nat.add_assoc]

theorem length_le_byteLength (text : List Char) : text.length ≤ byteLength text := by
  induction text with
  | nil => simp
  | cons c text ih => have := c.utf8Size_pos; simp; omega

-- The byte at which the character number `at` starts. Every position past the last character
-- counts as the end of the text.
def byteOffset (text : List Char) (position : Nat) : Nat :=
  byteLength (text.take position)

@[simp] theorem byteOffset_zero (text : List Char) : byteOffset text 0 = 0 := by
  simp [byteOffset]

theorem byteOffset_of_length_le {text : List Char} {position : Nat} (h : text.length ≤ position) :
    byteOffset text position = byteLength text := by
  rw [byteOffset, List.take_of_length_le h]

-- The characters from number `start` up to number `stop`. There are none, not even the empty
-- text, when `start` lies behind `stop` in the text.
def sliceChars? (text : List Char) (start stop : Nat) : Option (List Char) :=
  if byteOffset text start ≤ byteOffset text stop then some ((text.take stop).drop start) else none

-- The text after its first `count` bytes, unless these end inside a character or behind the
-- text.
def dropBytes? : List Char → Nat → Option (List Char)
  | text, 0 => some text
  | [], _ + 1 => none
  | c :: text, count + 1 =>
    if c.utf8Size ≤ count + 1 then dropBytes? text (count + 1 - c.utf8Size) else none

def takeBytes? : List Char → Nat → Option (List Char)
  | _, 0 => some []
  | [], _ + 1 => none
  | c :: text, count + 1 =>
    if c.utf8Size ≤ count + 1 then
      (takeBytes? text (count + 1 - c.utf8Size)).map (c :: ·)
    else none

-- The bytes from `start` up to `stop`, where both lie between two characters of the text and
-- `start` is not behind `stop`.
def sliceBytes? (text : List Char) (start stop : Nat) : Option (List Char) :=
  if start ≤ stop then (dropBytes? text start).bind (takeBytes? · (stop - start)) else none

@[simp] theorem dropBytes?_zero (text : List Char) : dropBytes? text 0 = some text := by
  cases text <;> rfl

@[simp] theorem takeBytes?_zero (text : List Char) : takeBytes? text 0 = some [] := by
  cases text <;> rfl

theorem dropBytes?_cons {c : Char} {text : List Char} {count : Nat} (h : c.utf8Size ≤ count) :
    dropBytes? (c :: text) count = dropBytes? text (count - c.utf8Size) := by
  have := c.utf8Size_pos
  obtain ⟨n, rfl⟩ : ∃ n, count = n + 1 := ⟨count - 1, by omega⟩
  simp [dropBytes?, h]

theorem takeBytes?_cons {c : Char} {text : List Char} {count : Nat} (h : c.utf8Size ≤ count) :
    takeBytes? (c :: text) count = (takeBytes? text (count - c.utf8Size)).map (c :: ·) := by
  have := c.utf8Size_pos
  obtain ⟨n, rfl⟩ : ∃ n, count = n + 1 := ⟨count - 1, by omega⟩
  simp [takeBytes?, h]

@[simp] theorem dropBytes?_append (before after : List Char) :
    dropBytes? (before ++ after) (byteLength before) = some after := by
  induction before with
  | nil => simp
  | cons c before ih =>
    rw [List.cons_append, byteLength_cons, dropBytes?_cons (by omega)]
    simpa using ih

@[simp] theorem takeBytes?_append (before after : List Char) :
    takeBytes? (before ++ after) (byteLength before) = some before := by
  induction before with
  | nil => simp
  | cons c before ih =>
    rw [List.cons_append, byteLength_cons, takeBytes?_cons (by omega)]
    simp [ih]

theorem sliceBytes?_append (before part after : List Char) :
    sliceBytes? (before ++ (part ++ after)) (byteLength before)
      (byteLength before + byteLength part) = some part := by
  simp [sliceBytes?]

end BoolSearch
