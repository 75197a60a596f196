import Mathlib.Data.Char
import ConfFriends.Delimited

/-!
# Percent encoding

A text is encoded character by character : an allowed character stays, and of any other the
bytes in UTF-8 are written as `%` and two hexadecimal digits. If the allowed characters are
ASCII and `%` is none of them, the bytes of the text can be read back from its encoding
(`bytesOf_addingPercentEncoding`) and so can the text
(`removingPercentEncoding_addingPercentEncoding`), so that no two texts have the same one. An
encoding is made of allowed characters, digits and `%`, so that it has no delimiter that is
not allowed (`mem_addingPercentEncoding`).
-/

set_option linter.unusedSectionVars false

namespace ConfFriends

/-- A hexadecimal digit. -/
def hexDigit (n : ℕ) : Char :=
  Char.ofNat (if n < 10 then 48 + n else 55 + n)

/-- The value of a hexadecimal digit. -/
def hexValue (c : Char) : ℕ :=
  if c.toNat < 65 then c.toNat - 48 else c.toNat - 55

/-- `%` and two digits. -/
def percentEncodedByte (b : UInt8) : List Char :=
  ['%', hexDigit (b.toNat / 16), hexDigit (b.toNat % 16)]

def percentEncodedChar (allowed : Char → Bool) (c : Char) : List Char :=
  if allowed c then [c] else (String.utf8EncodeChar c).flatMap percentEncodedByte

/-- `stringByAddingPercentEncodingWithAllowedCharacters:` -/
def addingPercentEncoding (allowed : Char → Bool) (s : String) : String :=
  String.ofList (s.toList.flatMap (percentEncodedChar allowed))

/-- The bytes that an encoding stands for. -/
def bytesOf : List Char → List UInt8
  | '%' :: c :: d :: l => UInt8.ofNat (16 * hexValue c + hexValue d) :: bytesOf l
  | c :: l => UInt8.ofNat c.toNat :: bytesOf l
  | [] => []

/-! ## Reading back -/

theorem hexValue_hexDigit {n : ℕ} (h : n < 16) : hexValue (hexDigit n) = n := by
  have hall : ∀ n < 16, hexValue (hexDigit n) = n := by decide
  exact hall n h

theorem bytesOf_percentEncodedByte (b : UInt8) (l : List Char) :
    bytesOf (percentEncodedByte b ++ l) = b :: bytesOf l := by
  have hb : b.toNat < 256 := b.toNat_lt
  have hvalue : 16 * (b.toNat / 16) + b.toNat % 16 = b.toNat := Nat.div_add_mod _ _
  rw [percentEncodedByte, List.cons_append, List.cons_append, List.cons_append, List.nil_append,
    bytesOf, hexValue_hexDigit (by omega), hexValue_hexDigit (by omega), hvalue,
    UInt8.ofNat_toNat]

theorem bytesOf_percentEncodedBytes (bytes : List UInt8) (l : List Char) :
    bytesOf (bytes.flatMap percentEncodedByte ++ l) = bytes ++ bytesOf l := by
  induction bytes with
  | nil => rfl
  | cons b bytes ih =>
    rw [List.flatMap_cons, List.append_assoc, bytesOf_percentEncodedByte, ih, List.cons_append]

/-- The allowed characters are ASCII other than `%`. -/
def PlainASCII (allowed : Char → Bool) : Prop :=
  ∀ c, allowed c = true → c.toNat < 128 ∧ c ≠ '%'

theorem utf8EncodeChar_of_lt {c : Char} (h : c.toNat < 128) :
    String.utf8EncodeChar c = [UInt8.ofNat c.toNat] := by
  have hval : c.toNat ≤ 127 := Nat.le_of_lt_succ h
  unfold String.utf8EncodeChar
  exact if_pos hval

variable {allowed : Char → Bool}

theorem bytesOf_percentEncodedChar (hallowed : PlainASCII allowed) (c : Char) (l : List Char) :
    bytesOf (percentEncodedChar allowed c ++ l) = String.utf8EncodeChar c ++ bytesOf l := by
  unfold percentEncodedChar
  split
  · next hc =>
    obtain ⟨hlt, hne⟩ := hallowed c hc
    rw [utf8EncodeChar_of_lt hlt, List.cons_append, List.nil_append, bytesOf]
    · rfl
    · exact fun _ _ _ hpercent _ => hne hpercent
  · exact bytesOf_percentEncodedBytes _ _

theorem bytesOf_flatMap (hallowed : PlainASCII allowed) (l : List Char) :
    bytesOf (l.flatMap (percentEncodedChar allowed)) = l.flatMap String.utf8EncodeChar := by
  induction l with
  | nil => rfl
  | cons c l ih =>
    rw [List.flatMap_cons, bytesOf_percentEncodedChar hallowed, ih, List.flatMap_cons]

/-- An encoding stands for the bytes of its text. -/
theorem bytesOf_addingPercentEncoding (hallowed : PlainASCII allowed) (s : String) :
    bytesOf (addingPercentEncoding allowed s).toList = s.toList.flatMap String.utf8EncodeChar := by
  rw [addingPercentEncoding, String.toList_ofList, bytesOf_flatMap hallowed]

theorem eq_of_utf8 {s t : String}
    (h : s.toList.flatMap String.utf8EncodeChar = t.toList.flatMap String.utf8EncodeChar) :
    s = t := by
  have hbytes : s.toList.utf8Encode = t.toList.utf8Encode := congrArg List.toByteArray h
  rw [← String.ofList_toList (s := s), ← String.ofList_toList (s := t), ← String.toByteArray_inj,
    String.toByteArray_ofList, String.toByteArray_ofList, hbytes]

/-- No two texts have the same encoding. -/
theorem addingPercentEncoding_injective (hallowed : PlainASCII allowed) :
    Function.Injective (addingPercentEncoding allowed) := by
  intro s t h
  refine eq_of_utf8 ?_
  rw [← bytesOf_addingPercentEncoding hallowed, h, bytesOf_addingPercentEncoding hallowed]

/-- The text that an encoding is of, if the bytes that it stands for are UTF-8. -/
def removingPercentEncoding (s : String) : Option String :=
  String.fromUTF8? (bytesOf s.toList).toByteArray

theorem fromUTF8?_toByteArray (s : String) : String.fromUTF8? s.toByteArray = some s := by
  rw [String.fromUTF8?, dif_pos s.isValidUTF8]
  rfl

/-- A text is read back from its encoding. -/
theorem removingPercentEncoding_addingPercentEncoding (hallowed : PlainASCII allowed)
    (s : String) : removingPercentEncoding (addingPercentEncoding allowed s) = some s := by
  have hbytes : (s.toList.flatMap String.utf8EncodeChar).toByteArray = s.toByteArray := by
    have hencode : (String.ofList s.toList).toByteArray = s.toList.utf8Encode :=
      String.toByteArray_ofList
    rw [String.ofList_toList] at hencode
    exact hencode.symm
  rw [removingPercentEncoding, bytesOf_addingPercentEncoding hallowed, hbytes,
    fromUTF8?_toByteArray]

/-! ## Length -/

theorem utf8EncodeChar_ne_nil (c : Char) : String.utf8EncodeChar c ≠ [] := by
  unfold String.utf8EncodeChar
  dsimp only
  split_ifs <;> simp

/-- An encoded character is longer than one. -/
theorem length_percentEncodedChar (allowed : Char → Bool) (c : Char) :
    (percentEncodedChar allowed c).length = 1 ∧ allowed c = true ∨
      1 < (percentEncodedChar allowed c).length ∧ allowed c = false := by
  unfold percentEncodedChar
  split
  · next hc => exact .inl ⟨rfl, hc⟩
  · next hc =>
    obtain ⟨b, bytes, hbytes⟩ := List.exists_cons_of_ne_nil (utf8EncodeChar_ne_nil c)
    refine .inr ⟨?_, by simpa using hc⟩
    rw [hbytes, List.flatMap_cons, List.length_append]
    simp only [percentEncodedByte, List.length_cons, List.length_nil]
    omega

theorem length_flatMap_percentEncodedChar (l : List Char) :
    l.length ≤ (l.flatMap (percentEncodedChar allowed)).length ∧
      ((l.flatMap (percentEncodedChar allowed)).length = l.length →
        ∀ c ∈ l, allowed c = true) := by
  induction l with
  | nil => simp
  | cons c l ih =>
    obtain ⟨hle, heq⟩ := ih
    rw [List.flatMap_cons, List.length_append, List.length_cons, List.forall_mem_cons]
    rcases length_percentEncodedChar allowed c with ⟨hlen, hc⟩ | ⟨hlen, -⟩
    · exact ⟨by omega, fun h => ⟨hc, heq (by omega)⟩⟩
    · exact ⟨by omega, fun h => by omega⟩

theorem le_length_addingPercentEncoding (s : String) :
    s.toList.length ≤ (addingPercentEncoding allowed s).toList.length := by
  rw [addingPercentEncoding, String.toList_ofList]
  exact (length_flatMap_percentEncodedChar _).1

/-- An encoding that is no longer than its text has only allowed characters to encode. -/
theorem forall_allowed_of_length {s : String}
    (h : (addingPercentEncoding allowed s).toList.length = s.toList.length) :
    ∀ c ∈ s.toList, allowed c = true := by
  rw [addingPercentEncoding, String.toList_ofList] at h
  exact (length_flatMap_percentEncodedChar _).2 h

theorem addingPercentEncoding_of_allowed {s : String} (h : ∀ c ∈ s.toList, allowed c = true) :
    addingPercentEncoding allowed s = s := by
  have hchars : s.toList.flatMap (percentEncodedChar allowed) = s.toList.flatMap ([·]) :=
    List.flatMap_congr fun c hc => by rw [percentEncodedChar, if_pos (h c hc)]
  rw [addingPercentEncoding, hchars, List.flatMap_singleton', String.ofList_toList]

/-! ## The characters of an encoding -/

/-- The characters that are written for a byte. -/
def IsPercentChar (c : Char) : Prop :=
  c = '%' ∨ ∃ n < 16, c = hexDigit n

theorem mem_percentEncodedByte {b : UInt8} {c : Char} (h : c ∈ percentEncodedByte b) :
    IsPercentChar c := by
  have hb : b.toNat < 256 := b.toNat_lt
  simp only [percentEncodedByte, List.mem_cons, List.not_mem_nil, or_false] at h
  rcases h with h | h | h
  · exact .inl h
  · exact .inr ⟨_, by omega, h⟩
  · exact .inr ⟨_, by omega, h⟩

/-- An encoding has no characters but allowed ones and those of encoded bytes. -/
theorem mem_addingPercentEncoding {s : String} {c : Char}
    (h : c ∈ (addingPercentEncoding allowed s).toList) : allowed c = true ∨ IsPercentChar c := by
  rw [addingPercentEncoding, String.toList_ofList, List.mem_flatMap] at h
  obtain ⟨d, -, hd⟩ := h
  unfold percentEncodedChar at hd
  split at hd
  · next hallowed =>
    obtain rfl := List.mem_singleton.1 hd
    exact .inl hallowed
  · obtain ⟨b, -, hb⟩ := List.mem_flatMap.1 hd
    exact .inr (mem_percentEncodedByte hb)

/-- An encoding has no character that is not allowed, but for `%` and the digits. -/
theorem not_mem_addingPercentEncoding {c : Char} (hallowed : allowed c = false) (hpercent : c ≠ '%')
    (hdigits : ∀ n < 16, hexDigit n ≠ c) (s : String) :
    c ∉ (addingPercentEncoding allowed s).toList := by
  intro h
  rcases mem_addingPercentEncoding h with hc | hc | ⟨n, hn, hc⟩
  · simp [hallowed] at hc
  · exact hpercent hc
  · exact hdigits n hn hc.symm

/-- The encoding of a text has no delimiters, if they are not allowed. -/
theorem undelimited_addingPercentEncoding (hamp : allowed '&' = false) (heq : allowed '=' = false)
    (s : String) : Undelimited (addingPercentEncoding allowed s) :=
  ⟨not_mem_addingPercentEncoding hamp (by decide) (by decide) s,
    not_mem_addingPercentEncoding heq (by decide) (by decide) s⟩

end ConfFriends
