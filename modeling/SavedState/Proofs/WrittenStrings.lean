import SavedState.Json.Quoted
import SavedState.Proofs.PlainManifests

/-!
Strings in JSON, written and read back.

Whatever a text is, quotes, backslashes and control characters included, it is read back from what
it is written as between quotes.
-/

namespace SavedState.Json

open Text.Reader

variable {α β : Type} {unicode : Reader Char} {s r : List Char} {c d : Char}

/-! ### Escapes -/

lemma takes_readChar_backslash (h : (readEscape unicode).Takes s c r) :
    (readChar unicode).Takes ('\\' :: s) ([c], true) r := by
  refine (takes_head _).bind ((takes_drop '\\' s).bind ?_)
  rw [if_neg (by decide), if_pos rfl]
  exact h.bind (takes_pure _ r)

lemma takes_readEscape_short (hc : c ≠ 'u') (h : shortEscape? c = some d) (r : List Char) :
    (readEscape unicode).Takes (c :: r) d r := by
  refine (takes_head _).bind ((takes_drop c r).bind ?_)
  rw [if_neg hc, h]
  exact takes_pure d r

lemma takes_readEscape_unicode (h : unicode.Takes s c r) :
    (readEscape unicode).Takes ('u' :: s) c r := by
  refine (takes_head _).bind ((takes_drop 'u' s).bind ?_)
  rw [if_pos rfl]
  exact h

lemma utf8Size_of_hexValue? {n : Nat} (h : Text.hexValue? c = some n) : c.utf8Size = 1 := by
  have hle : c.toNat ≤ 102 := by
    unfold Text.hexValue? at h
    dsimp only at h
    split_ifs at h <;> omega
  rw [Char.utf8Size_eq_one_iff]
  exact UInt32.le_iff_toNat_le.2 (by change c.toNat ≤ 127; omega)

/-- Each hexadecimal digit takes one byte. -/
lemma byteLength_of_ofHex? {digits : List Char} {n : Nat} (h : Text.ofHex? digits = some n) :
    Text.byteLength digits = digits.length := by
  unfold Text.ofHex? at h
  generalize 0 = m at h
  induction digits generalizing m with
  | nil => rfl
  | cons d digits ih =>
    rw [List.foldlM_cons, Option.bind_eq_bind, Option.bind_eq_some_iff] at h
    obtain ⟨k, hk, h⟩ := h
    obtain ⟨v, hv, -⟩ := Option.map_eq_some_iff.1 hk
    rw [Text.byteLength, utf8Size_of_hexValue? hv, ih _ h, List.length_cons, Nat.add_comm]

lemma takes_readHex {digits : List Char} {n : Nat} (hlength : digits.length = 4)
    (h : Text.ofHex? digits = some n) (r : List Char) : readHex.Takes (digits ++ r) n r := by
  have hbytes : Text.byteLength digits = 4 := (byteLength_of_ofHex? h).trans hlength
  have htake : (digits ++ r).take 4 = digits := List.take_left' hlength
  have hdrop : (digits ++ r).drop 4 = r := List.drop_left' hlength
  refine ⟨List.suffix_append digits r, ?_⟩
  unfold readHex
  simp only [htake, hdrop, hbytes, hlength, Nat.lt_irrefl, if_false, if_true, h]

variable {digits : List Char} {n : Nat}

/-- A code unit that is no half of a pair. -/
lemma takes_readUnicode_scalar (hlength : digits.length = 4) (h : Text.ofHex? digits = some n)
    (hlow : isLowSurrogate n = false) (hhigh : isHighSurrogate n = false) (r : List Char) :
    readUnicode.Takes (digits ++ r) (Char.ofNat n) r := by
  refine (takes_readHex hlength h r).bind ?_
  rw [hlow, hhigh]
  exact takes_pure _ r

/-- The four digits that a control character is written with. -/
def controlDigits (n : Nat) : List Char := ['0', '0', Text.hexChar (n / 16), Text.hexChar (n % 16)]

lemma takes_readUnicode (hn : n < 32) (r : List Char) :
    readUnicode.Takes (controlDigits n ++ r) (Char.ofNat n) r := by
  have hvalue : ∀ n < 32, Text.ofHex? (controlDigits n) = some n := by decide
  have hlow : isLowSurrogate n = false := by
    simp only [isLowSurrogate, Bool.and_eq_false_iff, decide_eq_false_iff_not]
    omega
  have hhigh : isHighSurrogate n = false := by
    simp only [isHighSurrogate, Bool.and_eq_false_iff, decide_eq_false_iff_not]
    omega
  exact takes_readUnicode_scalar rfl (hvalue n hn) hlow hhigh r

/-- **Each character is read back from what it is written as.** -/
lemma takes_readChar_escape (c : Char) (r : List Char) :
    (readChar readUnicode).Takes (escape c ++ r) ([c], true) r := by
  unfold escape
  split_ifs with hself hb hf hn hr ht hcontrol
  · refine takes_readChar_backslash (takes_readEscape_short ?_ ?_ r)
    · rintro rfl
      revert hself
      decide
    · unfold shortEscape?
      rw [if_pos (by tauto)]
  · exact takes_readChar_backslash (takes_readEscape_short (by decide) (by rw [hb]; rfl) r)
  · exact takes_readChar_backslash (takes_readEscape_short (by decide) (by rw [hf]; rfl) r)
  · exact takes_readChar_backslash (takes_readEscape_short (by decide) (by rw [hn]; rfl) r)
  · exact takes_readChar_backslash (takes_readEscape_short (by decide) (by rw [hr]; rfl) r)
  · exact takes_readChar_backslash (takes_readEscape_short (by decide) (by rw [ht]; rfl) r)
  · have hread := takes_readUnicode hcontrol r
    rw [Char.ofNat_toNat] at hread
    exact takes_readChar_backslash (takes_readEscape_unicode hread)
  · rw [not_or] at hself
    exact takes_readChar readUnicode hself.1 hself.2 (Nat.not_lt.1 hcontrol) r

lemma escape_ne_nil (c : Char) : escape c ≠ [] := by
  unfold escape
  split_ifs <;> exact List.cons_ne_nil _ _

/-! ### Strings -/

/-- What is written behind the opening quote of a text. -/
def quotedBody (text : String) : List Char := text.toList.flatMap escape ++ ['\x22']

lemma toList_quote_eq (text : String) : (quote text).toList = '\x22' :: quotedBody text := by
  simp [quote, quotedBody]

lemma takes_stringBody_written (text : String) (r : List Char) :
    stringBody.Takes (quotedBody text ++ r) text r := by
  have hchars : (readChars readUnicode).Takes (text.toList.flatMap escape ++ '\x22' :: r)
      (text.toList.map id) r :=
    takes_readChars (fun c _ => ⟨escape_ne_nil c, takes_readChar_escape c⟩) r
  rw [quotedBody, List.append_assoc, List.singleton_append]
  have hbody := hchars.map String.ofList
  rw [List.map_id, String.ofList_toList] at hbody
  exact hbody

/-- **A text is read back from its quoted form**, whatever it is. -/
theorem takes_readString_quote (text : String) (r : List Char) :
    readString.Takes ((quote text).toList ++ r) text r := by
  rw [toList_quote_eq, List.cons_append]
  refine (takes_peek (by decide) _).bind ?_
  rw [if_pos rfl]
  exact (takes_drop _ _).bind (takes_stringBody_written text r)

end SavedState.Json
