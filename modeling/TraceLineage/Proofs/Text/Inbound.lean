import TraceLineage.Proofs.Boundary.Outcome
import TraceLineage.Proofs.Text.Trim

/-!
# Texts that are received as ids

What is received is trimmed, and then it is an id exactly if it has 1 to 512 bytes, each of them a
visible ASCII character.  That is a condition on bytes, while texts are made of characters: every
byte of a character beyond ASCII is out of the range, so that a single such character is enough for
a text to be rejected.
-/

namespace TraceLineage

namespace Text

theorem data_toUTF8
    (s : String) :
    s.toUTF8.data.toList = s.toList.flatMap String.utf8EncodeChar := by
  have hbytes : (String.ofList s.toList).toByteArray.data.toList =
      s.toList.flatMap String.utf8EncodeChar := by
    rw [String.toByteArray_ofList, List.utf8Encode, List.data_toByteArray, List.toList_toArray]
  rw [String.ofList_toList] at hbytes
  exact hbytes

/-- The first byte of a character beyond ASCII is greater than all ASCII bytes. -/
theorem exists_mem_utf8EncodeChar
    {c : Char} (hc : 127 < c.val.toNat) :
    ∃ b ∈ String.utf8EncodeChar c, 0x7e < b.toNat := by
  have hascii : ¬c.val.toNat ≤ 127 := by omega
  rw [String.utf8EncodeChar, if_neg hascii]
  by_cases htwo : c.val.toNat ≤ 2047
  · rw [if_pos htwo]
    refine ⟨_, List.mem_cons_self, ?_⟩
    rw [UInt8.toNat_ofNat']
    omega
  · rw [if_neg htwo]
    by_cases hthree : c.val.toNat ≤ 65535
    · rw [if_pos hthree]
      refine ⟨_, List.mem_cons_self, ?_⟩
      rw [UInt8.toNat_ofNat']
      omega
    · rw [if_neg hthree]
      refine ⟨_, List.mem_cons_self, ?_⟩
      rw [UInt8.toNat_ofNat']
      omega

/-- A character is visible exactly if all its bytes are in the range of visible characters. -/
theorem isVisible_iff_bytes
    (c : Char) :
    isVisible c = true ↔ ∀ b ∈ String.utf8EncodeChar c, 0x21 ≤ b.toNat ∧ b.toNat ≤ 0x7e := by
  have hval : c.toNat = c.val.toNat := rfl
  simp only [isVisible, Bool.and_eq_true, decide_eq_true_eq]
  by_cases hascii : c.val.toNat ≤ 127
  · have hbyte : (UInt8.ofNat c.val.toNat).toNat = c.toNat := by
      rw [UInt8.toNat_ofNat']
      omega
    rw [String.utf8EncodeChar, if_pos hascii, List.forall_mem_singleton, hbyte]
  · constructor
    · intro hvisible
      omega
    · intro hbytes
      obtain ⟨b, hb, hbeyond⟩ := exists_mem_utf8EncodeChar (Nat.lt_of_not_le hascii)
      have hrange := hbytes b hb
      omega

/-- A text is visible exactly if all its bytes are in the range of visible characters. -/
theorem allVisible_iff_bytes
    (s : String) :
    allVisible s = true ↔ ∀ b ∈ s.toUTF8.data.toList, 0x21 ≤ b.toNat ∧ b.toNat ≤ 0x7e := by
  rw [allVisible, List.all_eq_true, data_toUTF8]
  constructor
  · intro hvisible b hb
    obtain ⟨c, hc, hbyte⟩ := List.mem_flatMap.1 hb
    exact (isVisible_iff_bytes c).1 (hvisible c hc) b hbyte
  · intro hbytes c hc
    rw [isVisible_iff_bytes]
    intro b hb
    exact hbytes b (List.mem_flatMap.2 ⟨c, hc, hb⟩)

end Text

namespace TraceId

/-- The texts that may be received as ids, as they stand. -/
structure Acceptable (t : String) : Prop where
  size_pos : 1 ≤ t.utf8ByteSize
  size_le : t.utf8ByteSize ≤ 512
  bytes_visible : ∀ b ∈ t.toUTF8.data.toList, 0x21 ≤ b.toNat ∧ b.toNat ≤ 0x7e

theorem acceptable_iff
    (t : String) :
    Acceptable t ↔ t ≠ "" ∧ t.utf8ByteSize ≤ maxInboundLength ∧ Text.allVisible t = true := by
  constructor
  · intro ht
    refine ⟨?_, ht.size_le, (Text.allVisible_iff_bytes t).2 ht.bytes_visible⟩
    intro hempty
    have hpos := ht.size_pos
    rw [hempty, String.utf8ByteSize_empty] at hpos
    omega
  · rintro ⟨hne, hle, hvisible⟩
    refine ⟨?_, hle, (Text.allVisible_iff_bytes t).1 hvisible⟩
    apply Nat.pos_of_ne_zero
    intro hsize
    exact hne (String.utf8ByteSize_eq_zero_iff.1 hsize)

theorem ofInbound?_of_isTrimOf
    {t raw : String} (ht : Text.IsTrimOf t raw) :
    (Acceptable t → ofInbound? raw = some ⟨t⟩) ∧ (¬Acceptable t → ofInbound? raw = none) := by
  have htrim := (Text.isTrimOf_iff t raw).1 ht
  rw [acceptable_iff]
  simp only [ofInbound?, ← htrim]
  constructor
  · intro hacceptable
    rw [if_pos hacceptable]
  · intro hrejected
    rw [if_neg hrejected]

theorem Acceptable.isTrimOf_self
    {t : String} (ht : Acceptable t) :
    Text.IsTrimOf t t := by
  have hvisible := (Text.allVisible_iff_bytes t).2 ht.bytes_visible
  have hmem : ∀ c ∈ t.toList, Text.isWhiteSpace c = false := by
    intro c hc
    exact Text.isWhiteSpace_of_isVisible (List.all_eq_true.1 hvisible c hc)
  constructor
  · refine ⟨"", "", Text.isBlank_empty, Text.isBlank_empty, ?_⟩
    rw [String.append_empty, String.empty_append]
  · intro c hc
    exact hmem c (List.mem_of_head? hc)
  · intro c hc
    exact hmem c (List.mem_of_getLast? hc)

/-- Ids are received by a grammar on bytes.  A text has one trimmed form, and if this has 1 to 512
bytes which are all visible ASCII characters, then it is the id that is received, whole; otherwise
there is none.  So an id that is received is not blank and is received again as it is, white space
of any kind around a text does not matter, and every acceptable text is received as it stands. -/
theorem ofInbound?_grammar :
    (∀ raw, ∃ t, Text.IsTrimOf t raw ∧ ∀ t', Text.IsTrimOf t' raw → t' = t) ∧
    (∀ raw t, Text.IsTrimOf t raw →
      (Acceptable t → ofInbound? raw = some ⟨t⟩) ∧ (¬Acceptable t → ofInbound? raw = none)) ∧
    (∀ raw id, ofInbound? raw = some id →
      Acceptable id.text ∧ id.isBlank = false ∧ ofInbound? id.text = some id) ∧
    (∀ u raw v, Text.isBlank u = true → Text.isBlank v = true →
      ofInbound? (u ++ raw ++ v) = ofInbound? raw) ∧
    ∀ t, Acceptable t → ofInbound? t = some ⟨t⟩ := by
  have hown : ∀ t, Acceptable t → ofInbound? t = some ⟨t⟩ := by
    intro t ht
    exact (ofInbound?_of_isTrimOf ht.isTrimOf_self).1 ht
  refine ⟨?_, fun raw t ht => ofInbound?_of_isTrimOf ht, ?_, ?_, hown⟩
  · intro raw
    refine ⟨Text.trim raw, (Text.isTrimOf_iff _ raw).2 rfl, ?_⟩
    intro t' ht'
    exact (Text.isTrimOf_iff t' raw).1 ht'
  · intro raw id hid
    have hrule := ofInbound?_of_isTrimOf ((Text.isTrimOf_iff _ raw).2 rfl)
    by_cases hacceptable : Acceptable (Text.trim raw)
    · rw [hrule.1 hacceptable] at hid
      cases hid
      exact ⟨hacceptable, (visible_of_ofInbound? (hown _ hacceptable)).2, hown _ hacceptable⟩
    · rw [hrule.2 hacceptable] at hid
      cases hid
  · intro u raw v hu hv
    simp only [ofInbound?, Text.trim_append hu hv]

/-- More than 512 bytes of white space around an id, and white space inside one. -/
theorem ofInbound?_grammar_of_padded :
    let padding := String.ofList (List.replicate 300 '\u2003')
    Text.isBlank padding = true ∧ Acceptable "root123" ∧
      ofInbound? (padding ++ "root123" ++ padding) = some ⟨"root123"⟩ ∧
      (⟨"root123"⟩ : TraceId).isBlank = false ∧
      Text.IsTrimOf "root 123" "root 123" ∧ ¬Acceptable "root 123" ∧
      ofInbound? "root 123" = none := by
  intro padding
  have hpadding : Text.isBlank padding = true := by
    rw [Text.isBlank, String.toList_ofList, List.all_eq_true]
    intro c hc
    rw [List.eq_of_mem_replicate hc]
    decide
  have hacceptable : Acceptable "root123" := by
    rw [acceptable_iff]
    decide +kernel
  have htrim : "root 123" = Text.trim "root 123" := by decide +kernel
  have hinner := (Text.isTrimOf_iff _ _).2 htrim
  have hrejected : ¬Acceptable "root 123" := by
    rw [acceptable_iff]
    decide +kernel
  obtain ⟨_, hrule, hreceived, hpadded, hown⟩ := ofInbound?_grammar
  have hid := hown "root123" hacceptable
  obtain ⟨_, hblank, _⟩ := hreceived _ _ hid
  have hnone := (hrule _ _ hinner).2 hrejected
  have hsome := (hpadded padding "root123" padding hpadding hpadding).trans hid
  exact ⟨hpadding, hacceptable, hsome, hblank, hinner, hrejected, hnone⟩

end TraceId
end TraceLineage
