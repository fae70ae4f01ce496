import AgentTraceGateway.Lib.CutText
import AgentTraceGateway.Trace.Store

/-! # Bounded Captures

  Content beyond the cap is cut at the cap, or up to three bytes before it
  where the cap falls inside a character. The scan indexes the content byte
  by byte; of a text it keeps the longest beginning that fits, and nothing
  in it is replaced. -/

namespace AgentTraceGateway

namespace CaptureCap

/-! ### The scan with its indices -/

/-- The loop of `bound`; `none` when `data[end]` is out of range. -/
def back_up (data : Bytes) : Nat → Option Nat
  | 0 => some 0
  | n + 1 => (data[n + 1]?).bind fun b => if is_continuation b then back_up data n else some (n + 1)

/-- `bound` with its index and its slice; `none` is a panic. -/
def bound_indexed (cap : CaptureCap) (data : Bytes) : Option String :=
  if data.length ≤ cap.max_bytes then some (String.ofList (utf8_lossy data))
  else
    (back_up data cap.max_bytes).bind fun stop =>
      if stop ≤ data.length then
        some (String.ofList (utf8_lossy (data.take stop)) ++ truncation_marker data.length stop)
      else none

/-! ### Where it backs up to -/

theorem char_boundary_spec (data : Bytes) : ∀ n : Nat,
    char_boundary data n ≤ n ∧
      (char_boundary data n = 0 ∨ (data[char_boundary data n]?).any is_continuation = false)
  | 0 => ⟨Nat.le_refl 0, Or.inl rfl⟩
  | n + 1 => by
    obtain ⟨hle, hstop⟩ := char_boundary_spec data n
    unfold char_boundary
    split
    · exact ⟨Nat.le_succ_of_le hle, hstop⟩
    · rename_i hnot
      exact ⟨Nat.le_refl _, Or.inr (Bool.eq_false_iff.mpr hnot)⟩

/-- Only continuation bytes are backed up over. -/
theorem char_boundary_skips (data : Bytes) : ∀ n m : Nat, char_boundary data n < m → m ≤ n →
    (data[m]?).any is_continuation = true
  | 0, m, hlt, hle => absurd (Nat.lt_of_lt_of_le hlt hle) (Nat.not_lt_zero _)
  | n + 1, m, hlt, hle => by
    unfold char_boundary at hlt
    split at hlt
    · rename_i hcont
      rcases Nat.lt_or_eq_of_le hle with hbefore | rfl
      · exact char_boundary_skips data n m hlt (Nat.le_of_lt_succ hbefore)
      · exact hcont
    · omega

/-- Inside the content every index is in range. -/
theorem back_up_eq {data : Bytes} : ∀ {n : Nat}, n < data.length →
    back_up data n = some (char_boundary data n)
  | 0, _ => rfl
  | n + 1, hlt => by
    have hbyte : data[n + 1]? = some data[n + 1] := List.getElem?_eq_getElem hlt
    rw [back_up, char_boundary, hbyte, Option.bind_some, Option.any_some]
    split
    · exact back_up_eq (Nat.lt_of_succ_lt hlt)
    · rfl

/-- The indices and the slice of `bound` never panic. -/
theorem bound_indexed_eq (cap : CaptureCap) (data : Bytes) :
    cap.bound_indexed data = some (cap.bound data) := by
  unfold bound_indexed bound
  by_cases hle : data.length ≤ cap.max_bytes
  · rw [if_pos hle, if_pos hle]
  · rw [if_neg hle, if_neg hle]
    have hbefore := (char_boundary_spec data cap.max_bytes).1
    rw [back_up_eq (Nat.lt_of_not_le hle), Option.bind_some, if_pos (by omega)]

/-! ### What it keeps of a text -/

theorem is_continuation_of_tail : ∀ k < 0x40, is_continuation (UInt8.ofNat (k + 0x80)) = true := by
  decide

/-- A character does not begin with a continuation byte. -/
theorem is_continuation_head (c : Char) :
    ((String.utf8EncodeChar c).head?).any is_continuation = false := by
  obtain ⟨b, rest, henc, hb⟩ := Utf8.head_utf8EncodeChar c
  rw [henc]
  exact hb

/-- Behind a shorter beginning of a text there is no continuation byte. -/
theorem next_of_front {kept rest : List Char} (hrest : rest ≠ []) :
    ((((kept ++ rest).flatMap String.utf8EncodeChar)[
      (kept.flatMap String.utf8EncodeChar).length]?).any is_continuation) = false := by
  obtain ⟨c, rest, rfl⟩ := List.exists_cons_of_ne_nil hrest
  have hpos : 0 < (String.utf8EncodeChar c).length := by
    rw [String.length_utf8EncodeChar]
    exact c.utf8Size_pos
  rw [List.flatMap_append, List.flatMap_cons, List.getElem?_append_right (Nat.le_refl _),
    Nat.sub_self, List.getElem?_append_left hpos, ← List.head?_eq_getElem?]
  exact is_continuation_head c

/-- The longest beginning of a text of at most `max_bytes` bytes. -/
structure LongestFit (max_bytes : Nat) (text kept : String) : Prop where
  front : kept.toList <+: text.toList
  fits : Text.len kept ≤ max_bytes
  longest : ∀ other : String, other.toList <+: text.toList → Text.len other ≤ max_bytes →
    Text.len other ≤ Text.len kept

theorem len_utf8_bytes (text : String) : (utf8_bytes text).length = Text.len text := by
  unfold utf8_bytes
  rw [Array.length_toList]
  rfl

/-- Beyond the cap a beginning of the content is kept, up to where the scan
    stops. -/
theorem bound_kept {cap : CaptureCap} {data : Bytes} {text : String}
    (htext : data <+: utf8_bytes text) (hlt : cap.max_bytes < data.length) :
    ∃ kept : String, utf8_bytes kept = data.take (char_boundary data cap.max_bytes) ∧
      cap.bound data = kept ++ truncation_marker data.length (utf8_bytes kept).length := by
  obtain ⟨hle, hstop⟩ := char_boundary_spec data cap.max_bytes
  have hlen : (data.take (char_boundary data cap.max_bytes)).length
      = char_boundary data cap.max_bytes := by
    rw [List.length_take, Nat.min_eq_left (by omega)]
  -- the cap is backed up until the byte behind it starts a character
  have hwhole : Whole (data.take (char_boundary data cap.max_bytes)) := by
    rcases hstop with hzero | hstop
    · rw [hzero, List.take_zero]
      exact whole_nil
    · refine whole_of_next ((List.take_prefix _ data).trans htext) ?_
      rw [hlen]
      intro k hk hbyte
      obtain ⟨rest, hrest⟩ := htext
      rw [← hrest, List.getElem?_append_left (by omega)] at hbyte
      rw [hbyte, Option.any_some, is_continuation_of_tail k hk] at hstop
      cases hstop
  have hkept := hwhole.lossy
  refine ⟨String.ofList (utf8_lossy (data.take (char_boundary data cap.max_bytes))), hkept, ?_⟩
  rw [hkept, hlen]
  unfold bound
  rw [if_neg (Nat.not_le_of_lt hlt)]

/-- Beyond the cap, the bound keeps a shorter text and says so. -/
theorem bound_beyond {cap : CaptureCap} {data : Bytes} {text : String}
    (htext : data <+: utf8_bytes text) (hlt : cap.max_bytes < data.length) :
    ∃ kept : String, utf8_bytes kept <+: data ∧ (utf8_bytes kept).length < data.length ∧
      cap.bound data = kept ++ truncation_marker data.length (utf8_bytes kept).length := by
  obtain ⟨kept, hkept, hbound⟩ := bound_kept htext hlt
  have hle := (char_boundary_spec data cap.max_bytes).1
  refine ⟨kept, ?_, ?_, hbound⟩
  · rw [hkept]
    exact List.take_prefix _ data
  · rw [hkept, List.length_take]
    omega

/-- What is kept of a text is the longest beginning that fits. -/
theorem bound_longest {cap : CaptureCap} {text : String} (hlt : cap.max_bytes < Text.len text) :
    ∃ kept, LongestFit cap.max_bytes text kept ∧
      cap.bound (utf8_bytes text) = kept ++ truncation_marker (Text.len text) (Text.len kept) := by
  have hbytes := len_utf8_bytes text
  obtain ⟨kept, hkept, hbound⟩ :=
    @bound_kept cap (utf8_bytes text) text List.prefix_rfl (by rw [hbytes]; exact hlt)
  have hstop := (char_boundary_spec (utf8_bytes text) cap.max_bytes).1
  have hlen : Text.len kept = char_boundary (utf8_bytes text) cap.max_bytes := by
    rw [← len_utf8_bytes, hkept, List.length_take, Nat.min_eq_left (by omega)]
  rw [len_utf8_bytes, len_utf8_bytes] at hbound
  refine ⟨kept, ⟨?_, by omega, ?_⟩, hbound⟩
  · exact chars_of_bytes (hkept ▸ List.take_prefix _ _)
  · intro other hother hfits
    -- a longer beginning would end in front of a continuation byte
    by_contra hlonger
    obtain ⟨rest, hrest⟩ := hother
    have hcont := char_boundary_skips (utf8_bytes text) cap.max_bytes (Text.len other) (by omega)
      hfits
    have hnext := @next_of_front other.toList rest ?_
    · rw [hrest, ← utf8_bytes_eq, ← utf8_bytes_eq, len_utf8_bytes, hcont] at hnext
      cases hnext
    · rintro rfl
      rw [List.append_nil] at hrest
      rw [String.toList_inj.mp hrest] at hfits
      omega

/-- One more character would not fit. -/
theorem LongestFit.close {max_bytes : Nat} {text kept : String}
    (h : LongestFit max_bytes text kept) (hlt : max_bytes < Text.len text) :
    max_bytes < Text.len kept + 4 := by
  obtain ⟨rest, hrest⟩ := h.front
  have hfits := h.fits
  cases rest with
  | nil =>
    rw [List.append_nil] at hrest
    rw [String.toList_inj.mp hrest] at hfits
    omega
  | cons c rest =>
    have hmore : Text.len (kept.push c) = Text.len kept + c.utf8Size := String.utf8ByteSize_push
    have hpos := c.utf8Size_pos
    have hsize := c.utf8Size_le_four
    have hfront : (kept.push c).toList <+: text.toList := by
      refine ⟨rest, ?_⟩
      rw [String.toList_push, List.append_assoc]
      exact hrest
    by_contra hfar
    have hlonger := h.longest (kept.push c) hfront (by omega)
    omega

/-- **Bounded captures**: of every text the bound returns the text itself up
    to the cap, and beyond it the longest beginning that fits and one marker
    with both sizes. -/
theorem bound_text (cap : CaptureCap) (text : String) :
    ∃ out, cap.bound_indexed (utf8_bytes text) = some out ∧
      (Text.len text ≤ cap.max_bytes → out = text) ∧
      (cap.max_bytes < Text.len text → ∃ kept, LongestFit cap.max_bytes text kept ∧
        cap.max_bytes < Text.len kept + 4 ∧
        out = kept ++ truncation_marker (Text.len text) (Text.len kept)) := by
  refine ⟨cap.bound (utf8_bytes text), bound_indexed_eq cap _, ?_, ?_⟩
  · intro hle
    unfold bound
    rw [len_utf8_bytes, if_pos hle, utf8_lossy_utf8_bytes, String.ofList_toList]
  · intro hlt
    obtain ⟨kept, hkept, hbound⟩ := bound_longest hlt
    exact ⟨kept, hkept, hkept.close hlt, hbound⟩

end CaptureCap

end AgentTraceGateway
