import TemplateCheck.Source.Load

/-!
This module contains why no text in UTF-8 begins like a compressed file.
-/

namespace TemplateCheck

namespace Text

theorem exists_flatMap_of_ofUtf8? {bytes : List UInt8} {text : String}
    (h : ofUtf8? bytes = some text) : ∃ s : List Char, bytes = s.flatMap String.utf8EncodeChar := by
  unfold ofUtf8? String.fromUTF8? at h
  split at h
  . next hvalid =>
    obtain ⟨s, hs⟩ := hvalid
    have hdata := congrArg (fun b => b.data.toList) hs
    rw [List.utf8Encode, List.data_toByteArray] at hdata
    exact ⟨s, hdata⟩
  . contradiction

theorem eq_nil_of_utf8EncodeChar {c : Char} {b : UInt8} {bs : List UInt8}
    (h : String.utf8EncodeChar c = b :: bs) (hb : b.toNat < 0xC0) : bs = [] := by
  unfold String.utf8EncodeChar at h
  dsimp only at h
  split at h
  . exact (List.cons.inj h).2.symm
  . split at h
    . rw [← (List.cons.inj h).1, UInt8.toNat_ofNat'] at hb
      omega
    . split at h
      . rw [← (List.cons.inj h).1, UInt8.toNat_ofNat'] at hb
        omega
      . rw [← (List.cons.inj h).1, UInt8.toNat_ofNat'] at hb
        omega

theorem isUTF8FirstByte_of_utf8EncodeChar {c : Char} {b : UInt8} {bs : List UInt8}
    (h : String.utf8EncodeChar c = b :: bs) : b.IsUTF8FirstByte := by
  have hpos : 0 < (String.utf8EncodeChar c).length := by
    rw [h]
    exact Nat.succ_pos _
  have hfirst := (@UInt8.isUTF8FirstByte_getElem_utf8EncodeChar c 0 hpos).mpr rfl
  simpa [h] using hfirst

end Text

theorem Source.looksCompressed_eq_false {bytes : List UInt8} {text : String}
    (h : Text.ofUtf8? bytes = some text) : looksCompressed bytes = false := by
  obtain ⟨s, rfl⟩ := Text.exists_flatMap_of_ofUtf8? h
  cases s with
  | nil => rfl
  | cons c s =>
    rw [List.flatMap_cons]
    obtain ⟨b, bs, hc⟩ := List.exists_cons_of_ne_nil (String.utf8EncodeChar_ne_nil (c := c))
    rw [hc]
    by_cases hb : b = 0x1F
    . subst hb
      obtain rfl := Text.eq_nil_of_utf8EncodeChar hc (by decide)
      cases s with
      | nil => rfl
      | cons c' s =>
        obtain ⟨b', bs', hc'⟩ := List.exists_cons_of_ne_nil (String.utf8EncodeChar_ne_nil (c := c'))
        have hb' : b' ≠ 0x8B := by
          rintro rfl
          exact absurd (Text.isUTF8FirstByte_of_utf8EncodeChar hc') (by decide)
        rw [List.flatMap_cons, hc']
        simp [looksCompressed, List.isPrefixOf, Ne.symm hb']
    . simp [looksCompressed, List.isPrefixOf, Ne.symm hb]

end TemplateCheck
