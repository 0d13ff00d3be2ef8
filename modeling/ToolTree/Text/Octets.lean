/-!
Octets, and the texts that are shown for them.

The octets of a text are its UTF-8 form. Names that come from outside may hold octets that are the
form of no text. They are shown with a replacement character for each longest stretch that begins
a character and breaks off, and for each other octet that stands wrong. Octets that are the form of
a text are shown as the text (`lossy_octets`), and only these can be had back from what is shown
(`octets_lossy_iff`).
-/

namespace ToolTree.Text

/-- The octets of a text in UTF-8. -/
def octets (s : String) : List UInt8 :=
  s.toByteArray.data.toList

theorem octets_eq_flatMap (s : String) : octets s = s.toList.flatMap String.utf8EncodeChar := by
  rw [octets, ← String.utf8Encode_toList, List.utf8Encode, List.toList_data_toByteArray]

/-! ### Octets that are shown -/

/-- The character whose form octets begin with. -/
def firstChar? (os : List UInt8) : Option Char :=
  (os.take 4).toByteArray.utf8DecodeChar? 0

/-- Whether an octet goes on with a character behind its first octet. -/
def continues (o : UInt8) : Bool :=
  0x80 ≤ o && o ≤ 0xBF

/-- Whether an octet can stand second in a form of three or four octets. -/
def secondOf (lead o : UInt8) : Bool :=
  if lead = 0xE0 then 0xA0 ≤ o && o ≤ 0xBF
  else if lead = 0xED then 0x80 ≤ o && o ≤ 0x9F
  else if lead = 0xF0 then 0x90 ≤ o && o ≤ 0xBF
  else if lead = 0xF4 then 0x80 ≤ o && o ≤ 0x8F
  else 0xE0 < lead && lead < 0xF4 && continues o

/-- How many octets are shown as one replacement character, where no character begins. -/
def brokenLength : List UInt8 → Nat
  | lead :: o :: rest =>
    if secondOf lead o then
      if 0xF0 ≤ lead && rest.head?.any continues then 3 else 2
    else 1
  | _ => 1

/-- The characters that are shown for octets behind some that are passed over. -/
def lossyChars : Nat → List UInt8 → List Char
  | _, [] => []
  | skip + 1, _ :: rest => lossyChars skip rest
  | 0, o :: rest =>
    match firstChar? (o :: rest) with
    | some c => c :: lossyChars (c.utf8Size - 1) rest
    | none => '\ufffd' :: lossyChars (brokenLength (o :: rest) - 1) rest

/-- The text that is shown for octets. -/
def lossy (os : List UInt8) : String :=
  String.ofList (lossyChars 0 os)

theorem firstChar?_append (c : Char) (more : List UInt8) :
    firstChar? (String.utf8EncodeChar c ++ more) = some c := by
  have short : (String.utf8EncodeChar c).length ≤ 4 := by
    rw [String.length_utf8EncodeChar]
    exact c.utf8Size_le_four
  rw [firstChar?, List.take_append, List.take_of_length_le short, List.toByteArray_append]
  exact ByteArray.utf8DecodeChar?_utf8EncodeChar_append

theorem lossyChars_append (passed more : List UInt8) :
    lossyChars passed.length (passed ++ more) = lossyChars 0 more := by
  induction passed with
  | nil => rfl
  | cons o rest ih => rw [List.length_cons, List.cons_append, lossyChars, ih]

/-- The form of a character is shown as the character. -/
theorem lossyChars_encode (c : Char) (more : List UInt8) :
    lossyChars 0 (String.utf8EncodeChar c ++ more) = c :: lossyChars 0 more := by
  obtain ⟨o, passed, form⟩ := List.exists_cons_of_ne_nil (String.utf8EncodeChar_ne_nil (c := c))
  have length : c.utf8Size - 1 = passed.length := by
    rw [← String.length_utf8EncodeChar, form, List.length_cons, Nat.add_sub_cancel]
  have first := firstChar?_append c more
  rw [form, List.cons_append] at first ⊢
  rw [lossyChars, first]
  change c :: lossyChars (c.utf8Size - 1) (passed ++ more) = c :: lossyChars 0 more
  rw [length, lossyChars_append]

theorem lossyChars_flatMap_encode (cs : List Char) :
    lossyChars 0 (cs.flatMap String.utf8EncodeChar) = cs := by
  induction cs with
  | nil => rfl
  | cons c rest ih => rw [List.flatMap_cons, lossyChars_encode, ih]

/-- A text is shown for its own octets. -/
theorem lossy_octets (s : String) : lossy (octets s) = s := by
  rw [lossy, octets_eq_flatMap, lossyChars_flatMap_encode, String.ofList_toList]

/-- What is shown for octets spells them only if they are those of a text. -/
theorem octets_lossy_iff {os : List UInt8} : octets (lossy os) = os ↔ ∃ s, octets s = os := by
  constructor
  · intro same
    exact ⟨_, same⟩
  · rintro ⟨s, rfl⟩
    rw [lossy_octets]

/-- An octet that begins no character is replaced. -/
example : lossy [0x63, 0x61, 0x66, 0xE9, 0x2E, 0x79] = "caf\ufffd.y" := by decide +kernel

example : lossy (octets "café.yaml") = "café.yaml" := by decide +kernel

end ToolTree.Text
