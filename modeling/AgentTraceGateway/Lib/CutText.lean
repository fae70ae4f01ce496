import AgentTraceGateway.Lib.Utf8

/-! # Texts Cut Short

  A text can be cut at any byte. What is left then is a shorter text, or a
  shorter text and the beginning of one more character. Decoding reads such
  a beginning as one `U+FFFD`, and the byte after it is a continuation byte.
  The other way round, where decoding replaces nothing, the input is the
  encoding of what was decoded.

  The library names nothing of any program. It offers:

  - `Whole`: the bytes of a text;
  - `utf8_lossy_append`: a text in front of any bytes is read back;
  - `whole_or_cut`: what is left of a text that is cut short;
  - `whole_of_unreplaced`: decoding that replaces nothing loses nothing.
-/

namespace AgentTraceGateway

/-- The bytes of a text. -/
def Whole (bs : Bytes) : Prop := ∃ text : String, utf8_bytes text = bs

theorem whole_nil : Whole [] := ⟨"", by decide⟩

/-- The encoding of characters is the bytes of a text. -/
theorem whole_encoded (chars : List Char) : Whole (chars.flatMap String.utf8EncodeChar) :=
  ⟨String.ofList chars, by rw [utf8_bytes_eq, String.toList_ofList]⟩

/-- A text in front of any bytes is read back. -/
theorem utf8_lossy_append (text : String) (bs : Bytes) :
    utf8_lossy (utf8_bytes text ++ bs) = text.toList ++ utf8_lossy bs := by
  rw [utf8_bytes_eq]
  unfold utf8_lossy
  induction text.toList with
  | nil => rfl
  | cons c chars ih =>
    rw [List.flatMap_cons, List.append_assoc, Utf8.lossy_from_utf8EncodeChar, ih, List.cons_append]

/-- Whole bytes are the encoding of what they decode to. -/
theorem Whole.lossy {bs : Bytes} (h : Whole bs) :
    utf8_bytes (String.ofList (utf8_lossy bs)) = bs := by
  obtain ⟨text, rfl⟩ := h
  rw [utf8_lossy_utf8_bytes, String.ofList_toList]

/-- Bytes in front make characters in front. -/
theorem chars_of_bytes {kept text : String} (h : utf8_bytes kept <+: utf8_bytes text) :
    kept.toList <+: text.toList := by
  obtain ⟨rest, hrest⟩ := h
  refine ⟨utf8_lossy rest, ?_⟩
  rw [← utf8_lossy_append, hrest, utf8_lossy_utf8_bytes]

namespace Utf8

/-! ### A character cut short -/

/-- A byte that emits nothing leaves a character in progress. -/
theorem step_pending {q : Option Pending} {b : UInt8} (h : (step q b).chars = []) :
    (step q b).next ≠ none := by
  have hstart : ∀ b, (start b).chars = [] → (start b).next ≠ none := by
    intro b
    unfold start
    split_ifs <;> simp
  cases q with
  | none => exact hstart b h
  | some p =>
    unfold step at h ⊢
    dsimp only at h ⊢
    split_ifs at h ⊢
    all_goals simp at h ⊢

/-- Whatever is left to read or to flush makes a character. -/
theorem lossy_from_ne_nil : ∀ (bs : Bytes) (q : Option Pending), q ≠ none ∨ bs ≠ [] →
    lossy_from q bs ≠ []
  | [], none, h => by simp at h
  | [], some _, _ => List.cons_ne_nil _ _
  | b :: bs, q, _ => by
    rw [lossy_from]
    intro hnil
    obtain ⟨hchars, hrest⟩ := List.append_eq_nil_iff.mp hnil
    exact lossy_from_ne_nil bs _ (Or.inl (step_pending hchars)) hrest

/-- Bytes that read as one character read as a replacement when they are cut
    short. -/
theorem lossy_from_cut {suf : Bytes} (hsuf : suf ≠ []) : ∀ (part : Bytes) (q : Option Pending),
    q ≠ none ∨ part ≠ [] → (lossy_from q (part ++ suf)).length = 1 →
      lossy_from q part = [replacement]
  | [], none, h, _ => by simp at h
  | [], some _, _, _ => rfl
  | b :: part, q, _, hone => by
    have hrest := List.length_pos_iff.mpr
      (lossy_from_ne_nil (part ++ suf) (step q b).next (Or.inr (by simp [hsuf])))
    rw [List.cons_append, lossy_from, List.length_append] at hone
    -- the one character comes after this byte
    have hchars : (step q b).chars = [] := List.length_eq_zero_iff.mp (by omega)
    rw [lossy_from, hchars, List.nil_append]
    exact lossy_from_cut hsuf part _ (Or.inl (step_pending hchars)) (by omega)

/-- The characters of one byte are the ASCII ones. -/
theorem utf8Size_eq_one_iff (c : Char) : c.utf8Size = 1 ↔ c.toNat < 0x80 := by
  rw [Char.utf8Size_eq_one_iff, UInt32.le_iff_toNat_le]
  exact Nat.lt_succ_iff.symm

/-- A character of one byte is encoded as itself. -/
theorem utf8EncodeChar_one {c : Char} (h : c.toNat < 0x80) :
    String.utf8EncodeChar c = [UInt8.ofNat c.toNat] := by
  unfold String.utf8EncodeChar
  exact if_pos (Nat.le_of_lt_succ h)

/-- A longer character begins with a byte beyond the continuation bytes. -/
theorem utf8EncodeChar_longer {c : Char} (h : ¬ c.toNat < 0x80) :
    ∃ b rest, String.utf8EncodeChar c = b :: rest ∧ 0xC0 ≤ b.toNat := by
  have hlong : ¬ c.val.toNat ≤ 0x7F := fun hle => h (Nat.lt_succ_of_le hle)
  have hlead : ∀ v, 0xC0 ≤ v → v < 0x100 → 0xC0 ≤ (UInt8.ofNat v).toNat := by
    intro v hle hlt
    rw [UInt8.toNat_ofNat', Nat.mod_eq_of_lt hlt]
    exact hle
  unfold String.utf8EncodeChar
  dsimp only
  rw [if_neg hlong]
  split_ifs
  · exact ⟨_, _, rfl, hlead _ (by omega) (by omega)⟩
  · exact ⟨_, _, rfl, hlead _ (by omega) (by omega)⟩
  · exact ⟨_, _, rfl, hlead _ (by omega) (by omega)⟩

/-- A character does not begin with a continuation byte. -/
theorem head_utf8EncodeChar (c : Char) :
    ∃ b rest, String.utf8EncodeChar c = b :: rest ∧ (b &&& 0xC0 == 0x80) = false := by
  have hlead : ∀ n < 0x100, n < 0x80 ∨ 0xC0 ≤ n → (UInt8.ofNat n &&& 0xC0 == 0x80) = false := by
    decide +kernel
  by_cases hascii : c.toNat < 0x80
  · exact ⟨_, [], utf8EncodeChar_one hascii, hlead _ (by omega) (Or.inl hascii)⟩
  · obtain ⟨b, rest, henc, hb⟩ := utf8EncodeChar_longer hascii
    have hthis := hlead b.toNat b.toNat_lt (Or.inr hb)
    rw [UInt8.ofNat_toNat] at hthis
    exact ⟨b, rest, henc, hthis⟩

/-- All bytes of a character but the first are continuation bytes. -/
theorem tail_utf8EncodeChar (c : Char) {b : UInt8} (h : b ∈ (String.utf8EncodeChar c).tail) :
    ∃ k < 0x40, b = UInt8.ofNat (k + 0x80) := by
  have hcont : ∀ v : Nat, ∃ k < 0x40, UInt8.ofNat (v % 64 + 0x80) = UInt8.ofNat (k + 0x80) :=
    fun v => ⟨v % 64, Nat.mod_lt _ (by decide), rfl⟩
  unfold String.utf8EncodeChar at h
  simp only [] at h
  split_ifs at h
  · simp at h
  · simp only [List.tail_cons, List.mem_cons, List.not_mem_nil, or_false] at h
    rw [h]
    exact hcont _
  · simp only [List.tail_cons, List.mem_cons, List.not_mem_nil, or_false] at h
    rcases h with rfl | rfl <;> exact hcont _
  · simp only [List.tail_cons, List.mem_cons, List.not_mem_nil, or_false] at h
    rcases h with rfl | rfl | rfl <;> exact hcont _

end Utf8

/-- What is left of a text cut inside a character: whole characters, and a
    part of one more, which reads as a replacement. The next byte of the
    text is a continuation byte. -/
structure CutText (bs : Bytes) (text : String) : Prop where
  replaced : ∃ kept : List Char, utf8_lossy bs = kept ++ [Utf8.replacement]
  next : ∃ k < 0x40, (utf8_bytes text)[bs.length]? = some (UInt8.ofNat (k + 0x80))

/-- A text that is cut short is whole, or is cut inside a character. -/
theorem whole_or_cut {bs : Bytes} {text : String} (h : bs <+: utf8_bytes text) :
    Whole bs ∨ CutText bs text := by
  -- by characters: what is cut off begins in the first one, or after it
  suffices hchars : ∀ (chars : List Char) (bs : Bytes),
      bs <+: chars.flatMap String.utf8EncodeChar →
      Whole bs ∨ ((∃ kept : List Char, utf8_lossy bs = kept ++ [Utf8.replacement]) ∧
        ∃ k < 0x40, (chars.flatMap String.utf8EncodeChar)[bs.length]?
          = some (UInt8.ofNat (k + 0x80))) by
    rw [utf8_bytes_eq] at h
    rcases hchars text.toList bs h with hwhole | ⟨hreplaced, hnext⟩
    · exact Or.inl hwhole
    · exact Or.inr ⟨hreplaced, by rw [utf8_bytes_eq]; exact hnext⟩
  intro chars
  induction chars with
  | nil =>
    intro bs h
    rw [List.prefix_nil.mp h]
    exact Or.inl whole_nil
  | cons c chars ih =>
    intro bs h
    rw [List.flatMap_cons] at h ⊢
    rcases List.prefix_or_prefix_of_prefix h (List.prefix_append _ _) with ⟨suf, hc⟩ | ⟨rest, rfl⟩
    · by_cases hbs : bs = []
      · exact Or.inl (hbs ▸ whole_nil)
      by_cases hsuf : suf = []
      · rw [hsuf, List.append_nil] at hc
        rw [hc, ← List.flatMap_singleton String.utf8EncodeChar c]
        exact Or.inl (whole_encoded [c])
      · refine Or.inr ⟨⟨[], ?_⟩, ?_⟩
        · have hone : (Utf8.lossy_from none (bs ++ suf)).length = 1 := by
            rw [hc, ← List.append_nil (String.utf8EncodeChar c), Utf8.lossy_from_utf8EncodeChar]
            rfl
          exact Utf8.lossy_from_cut hsuf bs none (Or.inr hbs) hone
        · obtain ⟨b, bs, rfl⟩ := List.exists_cons_of_ne_nil hbs
          obtain ⟨next, suf, rfl⟩ := List.exists_cons_of_ne_nil hsuf
          have htail : next ∈ (String.utf8EncodeChar c).tail := by simp [← hc]
          obtain ⟨k, hk, rfl⟩ := Utf8.tail_utf8EncodeChar c htail
          exact ⟨k, hk, by simp [← hc]⟩
    · have hrest := (List.prefix_append_right_inj _).mp h
      rcases ih rest hrest with ⟨text, rfl⟩ | ⟨⟨kept, hkept⟩, hnext⟩
      · rw [utf8_bytes_eq, ← List.flatMap_cons]
        exact Or.inl (whole_encoded _)
      · refine Or.inr ⟨⟨c :: kept, ?_⟩, ?_⟩
        · unfold utf8_lossy at hkept ⊢
          rw [Utf8.lossy_from_utf8EncodeChar, hkept, List.cons_append]
        · obtain ⟨k, hk, hbyte⟩ := hnext
          refine ⟨k, hk, ?_⟩
          rw [List.length_append, List.getElem?_append_right (Nat.le_add_right _ _),
            Nat.add_sub_cancel_left, hbyte]

/-- A text cut in front of a byte that is no continuation byte is whole. -/
theorem whole_of_next {bs : Bytes} {text : String} (h : bs <+: utf8_bytes text)
    (hnext : ∀ k < 0x40, (utf8_bytes text)[bs.length]? ≠ some (UInt8.ofNat (k + 0x80))) :
    Whole bs := by
  rcases whole_or_cut h with hwhole | hcut
  · exact hwhole
  · obtain ⟨k, hk, hbyte⟩ := hcut.next
    exact absurd hbyte (hnext k hk)

namespace Utf8

/-! ### Decoding that replaces nothing -/

/-- A code point as a character, and its encoding. -/
theorem toNat_ofNat {v : Nat} (h : v.isValidChar) : (Char.ofNat v).val.toNat = v := by
  unfold Char.ofNat
  rw [dif_pos h]
  rfl

theorem utf8EncodeChar_two {k j : Nat} (hk : k < 0x20) (hlow : 2 ≤ k) (hj : j < 0x40) :
    String.utf8EncodeChar (Char.ofNat (k * 0x40 + j))
      = [UInt8.ofNat (k + 0xC0), UInt8.ofNat (j + 0x80)] := by
  have hv : (Char.ofNat (k * 0x40 + j)).val.toNat = k * 0x40 + j :=
    toNat_ofNat (Or.inl (by omega))
  have hlead : (k * 0x40 + j) / 64 % 0x20 = k := by omega
  have hcont : (k * 0x40 + j) % 0x40 = j := by omega
  unfold String.utf8EncodeChar
  simp only [hv, hlead, hcont]
  rw [if_neg (by omega), if_pos (by omega)]

theorem utf8EncodeChar_three {k i j : Nat} (hk : k < 0x10) (hi : i < 0x40) (hj : j < 0x40)
    (hlow : k = 0 → 0x20 ≤ i) (hhigh : k = 0xD → i < 0x20) :
    String.utf8EncodeChar (Char.ofNat ((k * 0x40 + i) * 0x40 + j))
      = [UInt8.ofNat (k + 0xE0), UInt8.ofNat (i + 0x80), UInt8.ofNat (j + 0x80)] := by
  have hvalid : ((k * 0x40 + i) * 0x40 + j).isValidChar := by
    unfold Nat.isValidChar
    omega
  have hv := toNat_ofNat hvalid
  have hlead : ((k * 0x40 + i) * 0x40 + j) / 4096 % 0x10 = k := by omega
  have hcont : ((k * 0x40 + i) * 0x40 + j) / 64 % 0x40 = i := by omega
  have hcont' : ((k * 0x40 + i) * 0x40 + j) % 0x40 = j := by omega
  unfold String.utf8EncodeChar
  simp only [hv, hlead, hcont, hcont']
  rw [if_neg (by omega), if_neg (by omega), if_pos (by omega)]

theorem utf8EncodeChar_four {k i j l : Nat} (hk : k < 5) (hi : i < 0x40) (hj : j < 0x40)
    (hl : l < 0x40) (hlow : k = 0 → 0x10 ≤ i) (hhigh : k = 4 → i < 0x10) :
    String.utf8EncodeChar (Char.ofNat (((k * 0x40 + i) * 0x40 + j) * 0x40 + l))
      = [UInt8.ofNat (k + 0xF0), UInt8.ofNat (i + 0x80), UInt8.ofNat (j + 0x80),
        UInt8.ofNat (l + 0x80)] := by
  have hvalid : (((k * 0x40 + i) * 0x40 + j) * 0x40 + l).isValidChar := by
    unfold Nat.isValidChar
    omega
  have hv := toNat_ofNat hvalid
  have hlead : (((k * 0x40 + i) * 0x40 + j) * 0x40 + l) / 262144 % 0x08 = k := by omega
  have hcont : (((k * 0x40 + i) * 0x40 + j) * 0x40 + l) / 4096 % 0x40 = i := by omega
  have hcont' : (((k * 0x40 + i) * 0x40 + j) * 0x40 + l) / 64 % 0x40 = j := by omega
  have hcont'' : (((k * 0x40 + i) * 0x40 + j) * 0x40 + l) % 0x40 = l := by omega
  unfold String.utf8EncodeChar
  simp only [hv, hlead, hcont, hcont', hcont'']
  rw [if_neg (by omega), if_neg (by omega), if_neg (by omega)]

/-- The first byte of a character, by the length it announces. -/
theorem start_cases (b : UInt8) :
    (b.toNat < 0x80 ∧ start b = ⟨none, [Char.ofNat b.toNat], true⟩) ∨
    (∃ k < 0x20, 2 ≤ k ∧ b = UInt8.ofNat (k + 0xC0)) ∨
    (∃ k < 0x10, b = UInt8.ofNat (k + 0xE0)) ∨
    (∃ k < 5, b = UInt8.ofNat (k + 0xF0)) ∨
    start b = ⟨none, [replacement], false⟩ := by
  have hnat : b = UInt8.ofNat b.toNat := (UInt8.ofNat_toNat).symm
  have hlt := b.toNat_lt
  by_cases hascii : b.toNat < 0x80
  · exact Or.inl ⟨hascii, start_ascii (UInt8.lt_iff_toNat_lt.mpr hascii)⟩
  by_cases htwo : 0xC2 ≤ b.toNat ∧ b.toNat < 0xE0
  · refine Or.inr (Or.inl ⟨b.toNat - 0xC0, by omega, by omega, ?_⟩)
    rwa [Nat.sub_add_cancel (by omega)]
  by_cases hthree : 0xE0 ≤ b.toNat ∧ b.toNat < 0xF0
  · refine Or.inr (Or.inr (Or.inl ⟨b.toNat - 0xE0, by omega, ?_⟩))
    rwa [Nat.sub_add_cancel (by omega)]
  by_cases hfour : 0xF0 ≤ b.toNat ∧ b.toNat < 0xF5
  · refine Or.inr (Or.inr (Or.inr (Or.inl ⟨b.toNat - 0xF0, by omega, ?_⟩)))
    rwa [Nat.sub_add_cancel (by omega)]
  · refine Or.inr (Or.inr (Or.inr (Or.inr ?_)))
    simp only [start, UInt8.lt_iff_toNat_lt, UInt8.le_iff_toNat_le, ← UInt8.toNat_inj,
      UInt8.reduceToNat]
    repeat rw [if_neg (by omega)]

/-- A character in progress that is not replaced goes on with a byte in the
    range that is due. -/
theorem pending_next {owed bits : Nat} {low high : UInt8} (hlow : 0x80 ≤ low.toNat)
    (hhigh : high.toNat < 0xC0) {bs : Bytes}
    (h : replacement ∉ lossy_from (some ⟨owed + 1, bits, low, high⟩) bs) :
    ∃ j < 0x40, ∃ rest, bs = UInt8.ofNat (j + 0x80) :: rest ∧
      low.toNat ≤ j + 0x80 ∧ j + 0x80 ≤ high.toNat ∧
      lossy_from (some ⟨owed + 1, bits, low, high⟩) bs
        = if owed = 0 then Char.ofNat (bits * 0x40 + j) :: lossy_from none rest
          else lossy_from (some ⟨owed, bits * 0x40 + j, 0x80, 0xBF⟩) rest := by
  cases bs with
  | nil => exact absurd List.mem_cons_self h
  | cons b rest =>
    by_cases hin : low ≤ b ∧ b ≤ high
    · have hle := UInt8.le_iff_toNat_le.mp hin.1
      have hge := UInt8.le_iff_toNat_le.mp hin.2
      have hb : UInt8.ofNat (b.toNat - 0x80 + 0x80) = b := by
        rw [Nat.sub_add_cancel (by omega), UInt8.ofNat_toNat]
      have hj : b.toNat - 0x80 < 0x40 := by omega
      refine ⟨b.toNat - 0x80, hj, rest, by rw [hb], by omega, by omega, ?_⟩
      have hread := @lossy_from_continuation owed bits (b.toNat - 0x80) low high hj (by omega)
        (by omega) rest
      rwa [hb] at hread
    · -- the byte is out of range, so the character it breaks is replaced
      refine absurd ?_ h
      rw [lossy_from, step, if_neg hin]
      exact List.mem_append_left _ List.mem_cons_self

/-- One character is read off the front, and the bytes it is read from are its
    encoding. -/
def ReadsWhole (bs : Bytes) : Prop :=
  ∃ c rest, bs = String.utf8EncodeChar c ++ rest ∧
    lossy_from none bs = c :: lossy_from none rest

theorem reads_ascii {b : UInt8} (hb : b.toNat < 0x80)
    (hstart : start b = ⟨none, [Char.ofNat b.toNat], true⟩) (bs : Bytes) :
    ReadsWhole (b :: bs) := by
  have hv : (Char.ofNat b.toNat).val.toNat = b.toNat := toNat_ofNat (Or.inl (by omega))
  have hchar : String.utf8EncodeChar (Char.ofNat b.toNat) = [b] := by
    unfold String.utf8EncodeChar
    simp only [hv]
    rw [if_pos (by omega), UInt8.ofNat_toNat]
  refine ⟨Char.ofNat b.toNat, bs, by rw [hchar]; rfl, ?_⟩
  rw [lossy_from, step, hstart]
  rfl

theorem reads_two {k : Nat} (hk : k < 0x20) (hlow : 2 ≤ k) {bs : Bytes}
    (h : replacement ∉ lossy_from none (UInt8.ofNat (k + 0xC0) :: bs)) :
    ReadsWhole (UInt8.ofNat (k + 0xC0) :: bs) := by
  have hread : lossy_from none (UInt8.ofNat (k + 0xC0) :: bs)
      = lossy_from (some ⟨0 + 1, k, 0x80, 0xBF⟩) bs := by
    rw [lossy_from, step, start_two k hk hlow]
    rfl
  rw [hread] at h
  obtain ⟨j, hj, rest, hbs, -, -, hnext⟩ := pending_next (by decide) (by decide) h
  rw [if_pos rfl] at hnext
  refine ⟨Char.ofNat (k * 0x40 + j), rest, ?_, hread.trans hnext⟩
  rw [utf8EncodeChar_two hk hlow hj, hbs]
  rfl

theorem reads_three {k : Nat} (hk : k < 0x10) {bs : Bytes}
    (h : replacement ∉ lossy_from none (UInt8.ofNat (k + 0xE0) :: bs)) :
    ReadsWhole (UInt8.ofNat (k + 0xE0) :: bs) := by
  have hread : lossy_from none (UInt8.ofNat (k + 0xE0) :: bs)
      = lossy_from (some ⟨1 + 1, k, if k = 0 then 0xA0 else 0x80,
          if k = 0xD then 0x9F else 0xBF⟩) bs := by
    rw [lossy_from, step, start_three k hk]
    rfl
  rw [hread] at h
  -- the first continuation is bounded, so no overlong form and no surrogate is read
  obtain ⟨i, hi, rest, hbs, hlow, hhigh, hnext⟩ :=
    pending_next (by split_ifs <;> decide) (by split_ifs <;> decide) h
  rw [if_neg (show ¬1 = 0 by decide)] at hnext
  rw [hnext] at h
  obtain ⟨j, hj, rest', hbs', -, -, hnext'⟩ := @pending_next 0 _ _ _ (by decide) (by decide) _ h
  rw [if_pos rfl] at hnext'
  have hchar := utf8EncodeChar_three hk hi hj
    (fun hk0 => by rw [if_pos hk0] at hlow; simp at hlow; omega)
    (fun hkD => by rw [if_pos hkD] at hhigh; simp at hhigh; omega)
  refine ⟨_, rest', ?_, hread.trans (hnext.trans hnext')⟩
  rw [hchar, hbs, hbs']
  rfl

theorem reads_four {k : Nat} (hk : k < 5) {bs : Bytes}
    (h : replacement ∉ lossy_from none (UInt8.ofNat (k + 0xF0) :: bs)) :
    ReadsWhole (UInt8.ofNat (k + 0xF0) :: bs) := by
  have hread : lossy_from none (UInt8.ofNat (k + 0xF0) :: bs)
      = lossy_from (some ⟨2 + 1, k, if k = 0 then 0x90 else 0x80,
          if k = 4 then 0x8F else 0xBF⟩) bs := by
    rw [lossy_from, step, start_four k hk]
    rfl
  rw [hread] at h
  -- bounded here too: no overlong form, and nothing past the last code point
  obtain ⟨i, hi, rest, hbs, hlow, hhigh, hnext⟩ :=
    pending_next (by split_ifs <;> decide) (by split_ifs <;> decide) h
  rw [if_neg (show ¬2 = 0 by decide)] at hnext
  rw [hnext] at h
  obtain ⟨j, hj, rest', hbs', -, -, hnext'⟩ := @pending_next 1 _ _ _ (by decide) (by decide) _ h
  rw [if_neg (show ¬1 = 0 by decide)] at hnext'
  rw [hnext'] at h
  obtain ⟨l, hl, rest'', hbs'', -, -, hnext''⟩ :=
    @pending_next 0 _ _ _ (by decide) (by decide) _ h
  rw [if_pos rfl] at hnext''
  have hchar := utf8EncodeChar_four hk hi hj hl
    (fun hk0 => by rw [if_pos hk0] at hlow; simp at hlow; omega)
    (fun hk4 => by rw [if_pos hk4] at hhigh; simp at hhigh; omega)
  refine ⟨_, rest'', ?_, hread.trans (hnext.trans (hnext'.trans hnext''))⟩
  rw [hchar, hbs, hbs', hbs'']
  rfl

theorem reads_whole {b : UInt8} {bs : Bytes} (h : replacement ∉ lossy_from none (b :: bs)) :
    ReadsWhole (b :: bs) := by
  rcases start_cases b with ⟨hascii, hstart⟩ | ⟨k, hk, hlow, rfl⟩ | ⟨k, hk, rfl⟩ | ⟨k, hk, rfl⟩ |
    hstart
  · exact reads_ascii hascii hstart bs
  · exact reads_two hk hlow h
  · exact reads_three hk h
  · exact reads_four hk h
  · -- a byte that starts nothing is replaced
    refine absurd ?_ h
    rw [lossy_from, step, hstart]
    exact List.mem_cons_self

/-- Where nothing is replaced, the input is the encoding of what is read. -/
theorem encoded_of_unreplaced (bs : Bytes) (h : replacement ∉ lossy_from none bs) :
    (lossy_from none bs).flatMap String.utf8EncodeChar = bs := by
  -- on the length: a character takes one byte at least
  induction hn : bs.length using Nat.strongRecOn generalizing bs with
  | ind n ih =>
    cases bs with
    | nil => rfl
    | cons b bs =>
      obtain ⟨c, rest, hbs, hread⟩ := reads_whole h
      have hlen := congrArg List.length hbs
      rw [List.length_append] at hlen
      have hpos : 0 < (String.utf8EncodeChar c).length := by
        rw [String.length_utf8EncodeChar]
        exact c.utf8Size_pos
      rw [hread] at h
      have hrest := ih rest.length (by omega) rest (List.not_mem_of_not_mem_cons h) rfl
      rw [hread, List.flatMap_cons, hrest, hbs]

end Utf8

/-- Decoding that replaces nothing loses nothing. -/
theorem whole_of_unreplaced {bs : Bytes} (h : Utf8.replacement ∉ utf8_lossy bs) : Whole bs := by
  have hencoded := Utf8.encoded_of_unreplaced bs h
  rw [← hencoded]
  exact whole_encoded _

end AgentTraceGateway
