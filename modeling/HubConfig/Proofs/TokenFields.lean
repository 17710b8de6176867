/-
**What a token says.**

Whatever the names of the resource and the key, a token is written with printable ASCII characters
only, so that it can always be sent.

A token is four fields with `&` between them, each a name, `=` and a value.  Whatever the values are
made of, neither sign stands in them, so that cutting a token at these signs gives back what it was
made of.  One who has a token and the bytes of the key can therefore check the token without
anything else: what was signed is spelled in it.

Main definitions:

* `isPrintableAscii`, `IsPrintableText`: the characters from the blank to the tilde, and texts made
  of them;
* `formText?`: the text that a form field spells;
* `SharedAccessSignature.fields`: the fields of a token.

Main results:

* `SharedAccessSignature.header_eq_ok`: a token can be the value of a header;
* `SharedAccessSignature.splitAll_fields`: a token is cut into its fields;
* `SharedAccessSignature.eq_of_token_eq`: tokens differ if they are for different things;
* `SharedAccessSignature.token_verifiable`: **a token can be read and checked from its text alone**.
-/

import HubConfig.SharedAccessSignature
import HubConfig.Text.Split
import HubConfig.Text.Utf8

set_option autoImplicit false

namespace HubConfig

open HubConfig.Text

/-! ### Printable texts -/

/-- The characters from the blank to the tilde. -/
def isPrintableAscii (c : Char) : Bool := 0x20 ≤ c.toNat && c.toNat ≤ 0x7E

theorem isHeaderChar_of_isPrintableAscii {c : Char} (h : isPrintableAscii c = true) :
    isHeaderChar c = true := by
  simp only [isPrintableAscii, Bool.and_eq_true, decide_eq_true_eq] at h
  have hdel : c.toNat ≠ 0x7F := by omega
  simp [isHeaderChar, h.1, hdel]

theorem all_isPrintableAscii_formByte :
    ∀ b : UInt8, (formByte b).all isPrintableAscii = true :=
  forall_byte (by decide +kernel)

theorem isPrintableAscii_formEncode (bs : Bytes) :
    ∀ c ∈ formEncode bs, isPrintableAscii c = true := by
  intro c hc
  obtain ⟨b, -, hb⟩ := List.mem_flatMap.1 hc
  exact List.all_eq_true.1 (all_isPrintableAscii_formByte b) c hb

theorem isPrintableAscii_decimal (i : Int) : ∀ c ∈ decimal i, isPrintableAscii c = true := by
  intro c hc
  rcases isDigit_or_minus_of_mem_decimal hc with hdigit | rfl
  · have hbounds := Char.isDigit_iff_toNat.1 hdigit
    have hlow : 0x20 ≤ c.toNat := Nat.le_trans (by decide) hbounds.1
    have hhigh : c.toNat ≤ 0x7E := Nat.le_trans hbounds.2 (by decide)
    simp [isPrintableAscii, hlow, hhigh]
  · decide

/-- Texts that hold nothing else. -/
def IsPrintableText (s : String) : Prop := s.toList.all isPrintableAscii = true

theorem IsPrintableText.append {s t : String} (hs : IsPrintableText s) (ht : IsPrintableText t) :
    IsPrintableText (s ++ t) := by
  rw [IsPrintableText] at hs ht ⊢
  rw [String.toList_append, List.all_append, hs, ht, Bool.and_self]

theorem isPrintableText_ofList {cs : List Char} (h : ∀ c ∈ cs, isPrintableAscii c = true) :
    IsPrintableText (String.ofList cs) := by
  rw [IsPrintableText, String.toList_ofList]
  exact List.all_eq_true.2 h

theorem isHeaderValue_of_isPrintableText {s : String} (h : IsPrintableText s) :
    isHeaderValue s = true :=
  List.all_eq_true.2 fun c hc => isHeaderChar_of_isPrintableAscii (List.all_eq_true.1 h c hc)

namespace SharedAccessSignature

theorem isPrintableText_field (text : String) : IsPrintableText (String.ofList (field text)) :=
  isPrintableText_ofList (isPrintableAscii_formEncode _)

/-- **A token is made of printable ASCII characters.** -/
theorem isPrintableText_token (s : SharedAccessSignature) : IsPrintableText s.token := by
  have hname : IsPrintableText "SharedAccessSignature sr=" := rfl
  have hsig : IsPrintableText "&sig=" := rfl
  have hse : IsPrintableText "&se=" := rfl
  have hskn : IsPrintableText "&skn=" := rfl
  have hdigest : IsPrintableText (String.ofList (formEncode (utf8Bytes s.digest))) :=
    isPrintableText_ofList (isPrintableAscii_formEncode _)
  have hsecond : IsPrintableText (String.ofList s.expirySecond) :=
    isPrintableText_ofList (isPrintableAscii_decimal _)
  have hresource := (hname.append (isPrintableText_field s.resource)).append hsig
  have hsigned := ((hresource.append hdigest).append hse).append hsecond
  exact (hsigned.append hskn).append (isPrintableText_field s.keyName)

/-- A token can be the value of a header. -/
theorem header_eq_ok (s : SharedAccessSignature) :
    s.header = .ok ⟨authorizationName, s.token, true⟩ := by
  rw [header, Header.make_eq_ok_iff.2
    ⟨isHeaderValue_of_isPrintableText s.isPrintableText_token, rfl⟩]

end SharedAccessSignature

/-! ### Form fields -/

/-- The text that a form field spells. -/
def formText? (cs : List Char) : Option String := utf8Text? (formDecode cs)

/-- A text written as a form field reads back. -/
theorem formText?_formEncode (s : String) :
    formText? (formEncode (utf8Bytes s.toList)) = some s := by
  rw [formText?, formDecode_formEncode, utf8Text?_utf8Bytes]

/-- A character that neither ends a field nor the name of one. -/
def isFieldChar (c : Char) : Bool := c != '&' && c != '='

theorem all_isFieldChar_formByte : ∀ b : UInt8, (formByte b).all isFieldChar = true :=
  forall_byte (by decide +kernel)

theorem isFieldChar_formEncode (bs : Bytes) : ∀ c ∈ formEncode bs, isFieldChar c = true := by
  intro c hc
  obtain ⟨b, -, hb⟩ := List.mem_flatMap.1 hc
  exact List.all_eq_true.1 (all_isFieldChar_formByte b) c hb

theorem isFieldChar_decimal (i : Int) : ∀ c ∈ decimal i, isFieldChar c = true := by
  intro c hc
  rcases isDigit_or_minus_of_mem_decimal hc with hdigit | rfl
  · have hand : c ≠ '&' := by
      rintro rfl
      exact absurd hdigit (by decide)
    have hequals : c ≠ '=' := by
      rintro rfl
      exact absurd hdigit (by decide)
    simp [isFieldChar, hand, hequals]
  · decide

theorem ampersand_not_mem {cs : List Char} (h : ∀ c ∈ cs, isFieldChar c = true) : '&' ∉ cs :=
  fun hmem => absurd (h _ hmem) (by decide)

theorem equals_not_mem {cs : List Char} (h : ∀ c ∈ cs, isFieldChar c = true) : '=' ∉ cs :=
  fun hmem => absurd (h _ hmem) (by decide)

theorem ampersand_not_mem_append {name value : List Char} (hname : '&' ∉ name)
    (hvalue : ∀ c ∈ value, isFieldChar c = true) : '&' ∉ name ++ value := by
  rw [List.mem_append, not_or]
  exact ⟨hname, ampersand_not_mem hvalue⟩

namespace SharedAccessSignature

/-! ### The fields of a token -/

/-- The digest as a form field. -/
def digestField (s : SharedAccessSignature) : List Char := formEncode (utf8Bytes s.digest)

/-- The fields of a token. -/
def fields (s : SharedAccessSignature) : List (List Char) :=
  ["sr=".toList ++ field s.resource, "sig=".toList ++ s.digestField,
    "se=".toList ++ s.expirySecond, "skn=".toList ++ field s.keyName]

/-- The text of a token after its first word. -/
def fieldText (s : SharedAccessSignature) : List Char :=
  ("sr=".toList ++ field s.resource) ++ '&' :: (("sig=".toList ++ s.digestField) ++
    '&' :: (("se=".toList ++ s.expirySecond) ++ '&' :: ("skn=".toList ++ field s.keyName)))

theorem toList_token (s : SharedAccessSignature) :
    s.token.toList = "SharedAccessSignature ".toList ++ s.fieldText := by
  have hfront : "SharedAccessSignature sr=".toList =
      "SharedAccessSignature ".toList ++ "sr=".toList := rfl
  have hsig : "&sig=".toList = '&' :: "sig=".toList := rfl
  have hse : "&se=".toList = '&' :: "se=".toList := rfl
  have hskn : "&skn=".toList = '&' :: "skn=".toList := rfl
  unfold token fieldText digestField
  simp only [String.toList_append, String.toList_ofList]
  rw [hfront, hsig, hse, hskn]
  simp only [List.append_assoc, List.cons_append]

theorem token_eq (s : SharedAccessSignature) :
    s.token = "SharedAccessSignature " ++ String.ofList s.fieldText := by
  refine String.toList_inj.1 ?_
  simp only [toList_token, String.toList_append, String.toList_ofList]

/-- A word in front of the first field is a part of that field. -/
theorem splitAll_append_fieldText (s : SharedAccessSignature) (word : List Char)
    (h : '&' ∉ word) :
    splitAll '&' (word ++ s.fieldText) =
      [word ++ ("sr=".toList ++ field s.resource), "sig=".toList ++ s.digestField,
        "se=".toList ++ s.expirySecond, "skn=".toList ++ field s.keyName] := by
  have hresource : '&' ∉ word ++ ("sr=".toList ++ field s.resource) := by
    rw [← List.append_assoc]
    refine ampersand_not_mem_append ?_ (isFieldChar_formEncode _)
    simp [h]
  have hdigest : '&' ∉ "sig=".toList ++ s.digestField :=
    ampersand_not_mem_append (by decide) (isFieldChar_formEncode _)
  have hsecond : '&' ∉ "se=".toList ++ s.expirySecond :=
    ampersand_not_mem_append (by decide) (isFieldChar_decimal _)
  have hname : '&' ∉ "skn=".toList ++ field s.keyName :=
    ampersand_not_mem_append (by decide) (isFieldChar_formEncode _)
  rw [fieldText, ← List.append_assoc, splitAll_append_cons hresource,
    splitAll_append_cons hdigest, splitAll_append_cons hsecond, splitAll_of_not_mem hname]

/-- **A token is cut into its fields.** -/
theorem splitAll_fields (s : SharedAccessSignature) : splitAll '&' s.fieldText = s.fields :=
  s.splitAll_append_fieldText [] (by decide)

/-- The digest in a token is that of the token's own words for the resource and the second. -/
theorem formText?_digestField (s : SharedAccessSignature) :
    formText? s.digestField = some (String.ofList (Base64.encode
      (hmacSha256 s.key (utf8Bytes (field s.resource ++ '\n' :: s.expirySecond))))) := by
  have h := formText?_formEncode (String.ofList s.digest)
  rw [String.toList_ofList] at h
  exact h

/-! ### Tokens that are the same -/

theorem field_injective {a b : String} (h : field a = field b) : a = b := by
  have hb := formText?_formEncode b
  have ha := formText?_formEncode a
  rw [field, field] at h
  rw [h, hb] at ha
  exact (Option.some.inj ha).symm

/-- Two tokens are the same only if they are for the same resource, the same key name and the same
second. -/
theorem eq_of_token_eq {s t : SharedAccessSignature} (h : s.token = t.token) :
    s.resource = t.resource ∧ s.keyName = t.keyName ∧ s.expiry.seconds = t.expiry.seconds := by
  have htext : s.fieldText = t.fieldText := by
    have hlist := congrArg String.toList h
    rwa [toList_token, toList_token, List.append_cancel_left_eq] at hlist
  have hfields : s.fields = t.fields := by rw [← splitAll_fields, htext, splitAll_fields]
  simp only [fields, List.cons.injEq, List.append_cancel_left_eq, and_true] at hfields
  obtain ⟨hresource, -, hsecond, hname⟩ := hfields
  exact ⟨field_injective hresource, field_injective hname, decimal_injective hsecond⟩

/-! ### Reading and checking a token -/

theorem toNat_of_mem_token (s : SharedAccessSignature) :
    ∀ c ∈ s.token.toList, 0x20 ≤ c.toNat ∧ c.toNat ≤ 0x7E := by
  intro c hc
  have h := List.all_eq_true.1 s.isPrintableText_token c hc
  simpa only [isPrintableAscii, Bool.and_eq_true, decide_eq_true_eq] using h

theorem encode_hmacSha256_jefe :
    Base64.encode (hmacSha256 (utf8Bytes "Jefe".toList)
        (utf8Bytes "what do ya want for nothing?".toList)) =
      "W9zBRr9gdU5qBCQmCJV1x1oAPwidJzmDnexYuWTsOEM=".toList := by
  rw [hmacSha256_jefe]
  decide

/-- **A token can be read and checked from its text alone.**  It spells the resource, the name of
the key and the second at which it expires, whatever characters they hold; its digest is that of
its own words under the bytes of the key, made of two digests of SHA-256 with the key before each;
it can be sent in a header; and no other resource, name or second has the same token. -/
theorem token_verifiable (key resource keyName : String) (expiry : Instant) {bytes : Bytes}
    (hkey : key ≠ "") (hbytes : Base64.decode? key.toList = some bytes) (hresource : resource ≠ "")
    (hkeyName : keyName ≠ "") :
    ∃ s, make key resource keyName expiry = .ok s ∧
      (∃ text sr sig se skn : List Char,
        s.token = "SharedAccessSignature " ++ String.ofList text ∧
        splitAll '&' text =
          ["sr=".toList ++ sr, "sig=".toList ++ sig, "se=".toList ++ se, "skn=".toList ++ skn] ∧
        (∀ value ∈ [sr, sig, se, skn], '=' ∉ value) ∧
        formText? sr = some resource ∧ formText? skn = some keyName ∧
        se = decimal expiry.seconds ∧
        formText? sig = some (String.ofList
          (Base64.encode (hmacSha256 bytes (utf8Bytes (sr ++ '\n' :: se)))))) ∧
      (∀ k message : Bytes, (hmacSha256 k message).length = 32 ∧
        ∃ block zeros : Bytes, block = (if k.length ≤ 64 then k else sha256 k) ++ zeros ∧
          block.length = 64 ∧ (∀ b ∈ zeros, b = 0) ∧
          hmacSha256 k message =
            sha256 (block.map (· ^^^ 0x5C) ++ sha256 (block.map (· ^^^ 0x36) ++ message))) ∧
      Base64.encode (hmacSha256 (utf8Bytes "Jefe".toList)
          (utf8Bytes "what do ya want for nothing?".toList)) =
        "W9zBRr9gdU5qBCQmCJV1x1oAPwidJzmDnexYuWTsOEM=".toList ∧
      (∀ c ∈ s.token.toList, 0x20 ≤ c.toNat ∧ c.toNat ≤ 0x7E) ∧
      s.header = .ok ⟨"authorization", s.token, true⟩ ∧
      ∀ t : SharedAccessSignature, t.token = s.token →
        t.resource = resource ∧ t.keyName = keyName ∧ t.expiry.seconds = expiry.seconds := by
  obtain ⟨s, hs⟩ : ∃ s : SharedAccessSignature, s = ⟨bytes, resource, keyName, expiry⟩ := ⟨_, rfl⟩
  have hmake : make key resource keyName expiry = .ok s := by
    subst hs
    exact make_eq_ok_iff.2 ⟨⟨hkey, hresource, hkeyName⟩, hbytes, rfl, rfl, rfl⟩
  refine ⟨s, hmake, ⟨s.fieldText, field s.resource, s.digestField, s.expirySecond, field s.keyName,
    s.token_eq, s.splitAll_fields, ?_, ?_, ?_, ?_, ?_⟩,
    fun k message => ⟨length_hmacSha256 k message, exists_hmacSha256_eq k message⟩,
    encode_hmacSha256_jefe, s.toNat_of_mem_token, s.header_eq_ok, fun t ht => ?_⟩
  · intro value hvalue
    simp only [List.mem_cons, List.not_mem_nil, or_false] at hvalue
    rcases hvalue with rfl | rfl | rfl | rfl
    · exact equals_not_mem (isFieldChar_formEncode _)
    · exact equals_not_mem (isFieldChar_formEncode _)
    · exact equals_not_mem (isFieldChar_decimal _)
    · exact equals_not_mem (isFieldChar_formEncode _)
  · subst hs
    exact formText?_formEncode resource
  · subst hs
    exact formText?_formEncode keyName
  · subst hs
    rfl
  · subst hs
    exact formText?_digestField _
  · subst hs
    exact eq_of_token_eq ht

/-- A resource full of signs that mean something in a token, half a second before the epoch. -/
theorem token_verifiable_sample :
    Base64.decode? "a2V5".toList = some [0x6B, 0x65, 0x79] ∧
      ∃ s, make "a2V5" "a&sig=%2B+ é\n" "o=\x00 w" ⟨-1, 500000000⟩ = .ok s ∧
        s.token = "SharedAccessSignature sr=a%26sig%3D%252B%2B+%C3%A9%0A" ++
          "&sig=9A4mDN4LLKfLIAObSalQV98fvm1SrzGtTosSVbimMh0%3D&se=-1&skn=o%3D%00+w" ∧
        ∃ text sr sig se skn : List Char,
          splitAll '&' text =
            ["sr=".toList ++ sr, "sig=".toList ++ sig, "se=".toList ++ se, "skn=".toList ++ skn] ∧
          formText? sr = some "a&sig=%2B+ é\n" ∧ formText? skn = some "o=\x00 w" ∧
          se = ['-', '1'] ∧
          formText? sig = some (String.ofList
            (Base64.encode (hmacSha256 [0x6B, 0x65, 0x79] (utf8Bytes (sr ++ '\n' :: se))))) ∧
          s.header = .ok ⟨"authorization", s.token, true⟩ := by
  have hbytes : Base64.decode? "a2V5".toList = some [0x6B, 0x65, 0x79] := by decide
  obtain ⟨s, hs, ⟨text, sr, sig, se, skn, -, hsplit, -, hsr, hskn, hse, hsig⟩, hrest⟩ :=
    token_verifiable "a2V5" "a&sig=%2B+ é\n" "o=\x00 w" ⟨-1, 500000000⟩ (by decide) hbytes
      (by decide) (by decide)
  obtain ⟨-, -, -, hheader, -⟩ := hrest
  have hmade : make "a2V5" "a&sig=%2B+ é\n" "o=\x00 w" ⟨-1, 500000000⟩ =
      .ok ⟨[0x6B, 0x65, 0x79], "a&sig=%2B+ é\n", "o=\x00 w", ⟨-1, 500000000⟩⟩ :=
    make_eq_ok_iff.2 ⟨by decide, hbytes, rfl, rfl, rfl⟩
  have htoken : s.token = "SharedAccessSignature sr=a%26sig%3D%252B%2B+%C3%A9%0A" ++
      "&sig=9A4mDN4LLKfLIAObSalQV98fvm1SrzGtTosSVbimMh0%3D&se=-1&skn=o%3D%00+w" := by
    rw [← Except.ok.inj (hmade.symm.trans hs)]
    decide +kernel
  exact ⟨hbytes, s, hs, htoken, text, sr, sig, se, skn, hsplit, hsr, hskn, hse, hsig, hheader⟩

end SharedAccessSignature

end HubConfig
