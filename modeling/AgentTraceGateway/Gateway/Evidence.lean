import Mathlib.Algebra.GroupWithZero.Nat
import Mathlib.Data.List.Count
import AgentTraceGateway.Gateway.Headers

/-! # Header Evidence

  The evidence of a turn is a greedy choice: every header that may be kept
  is kept while the entries and their bytes stay within the bounds. A header
  that a bound refuses is counted; a barred header and a value that is no
  text, or blank, are not. -/

namespace AgentTraceGateway

/-! ### What is kept of a header -/

/-- The readable value of a header, when it is not blank. -/
def header_text (raw : Bytes) : Option String :=
  (HeaderMap.value_to_str raw).filter fun text => !Text.is_blank text

/-- The headers that are kept or counted as dropped. -/
def counts (header : String × Bytes) : Bool :=
  !hdr_evidence_denied header.1
    && (decide (HDR_NAME_CAP < Text.len header.1) || (header_text header.2).isSome)

/-- The entry that is kept of a header. -/
structure KeptFrom (entry : String × String) (header : String × Bytes) : Prop where
  name : entry.1 = header.1
  allowed : hdr_evidence_denied header.1 = false
  short : Text.len header.1 ≤ HDR_NAME_CAP
  value : ∃ text, HeaderMap.value_to_str header.2 = some text ∧
    entry.2 = truncate_header_value (Text.trim text) HDR_VALUE_CAP
  filled : entry.2 ≠ ""

/-- The bytes of the entries, names and values. -/
def evidence_bytes (kept : List (String × String)) : Nat :=
  (kept.map fun e => Text.len e.1 + Text.len e.2).sum

/-- What the loop has done with the headers so far. -/
structure EvidenceInv (headers : HeaderMap) (ev : Evidence) : Prop where
  entries : ev.kept.length ≤ HDR_EVIDENCE_MAX_ENTRIES
  used : ev.used = evidence_bytes ev.kept
  budget : ev.used ≤ HDR_EVIDENCE_BUDGET
  picked : ∃ picked : HeaderMap, picked.Sublist headers ∧ List.Forall₂ KeptFrom ev.kept picked
  some_dropped : ev.kept.length ≤ headers.countP counts
  counted : ev.dropped.toNat = min (headers.countP counts - ev.kept.length) 0xFFFFFFFF

/-! ### One header -/

/-- A cut value is empty exactly when nothing is left after trimming. -/
theorem truncated_isEmpty (text : String) :
    (truncate_header_value (Text.trim text) HDR_VALUE_CAP).isEmpty = Text.is_blank text := by
  unfold truncate_header_value Text.trim Text.is_blank
  rw [String.toList_ofList]
  cases Text.trim_chars text.toList with
  | nil => rfl
  | cons c chars =>
    rw [show HDR_VALUE_CAP = 255 + 1 from rfl, List.take_succ_cons]
    exact Bool.eq_false_iff.mpr fun h => by simpa using String.isEmpty_iff.mp h

variable {headers : HeaderMap} {ev : Evidence}

theorem EvidenceInv.pass (h : EvidenceInv headers ev) {header : String × Bytes}
    (hcounts : counts header = false) : EvidenceInv (headers ++ [header]) ev := by
  have hcount : (headers ++ [header]).countP counts = headers.countP counts := by
    rw [List.countP_append, List.countP_singleton, hcounts]
    rfl
  obtain ⟨picked, hsub, hkept⟩ := h.picked
  refine ⟨h.entries, h.used, h.budget, ⟨picked, hsub.trans (List.sublist_append_left _ _), hkept⟩,
    ?_, ?_⟩
  · rw [hcount]
    exact h.some_dropped
  · rw [hcount]
    exact h.counted

theorem drop_one_toNat (ev : Evidence) :
    ev.drop_one.dropped.toNat = min (ev.dropped.toNat + 1) 0xFFFFFFFF := by
  have hlt := ev.dropped.toNat_lt
  unfold Evidence.drop_one
  dsimp only
  split
  · rename_i hmax
    rw [hmax]
    decide
  · rename_i hmax
    have hne : ev.dropped.toNat ≠ 0xFFFFFFFF := fun heq => hmax (UInt32.toNat_inj.mp heq)
    rw [UInt32.toNat_add]
    show (ev.dropped.toNat + 1) % 2 ^ 32 = _
    omega

theorem EvidenceInv.drop (h : EvidenceInv headers ev) {header : String × Bytes}
    (hcounts : counts header = true) : EvidenceInv (headers ++ [header]) ev.drop_one := by
  have hcount : (headers ++ [header]).countP counts = headers.countP counts + 1 := by
    rw [List.countP_append, List.countP_singleton, hcounts]
    rfl
  obtain ⟨picked, hsub, hkept⟩ := h.picked
  have hsome := h.some_dropped
  have hcounted := h.counted
  refine ⟨h.entries, h.used, h.budget, ⟨picked, hsub.trans (List.sublist_append_left _ _), hkept⟩,
    ?_, ?_⟩
  · show ev.kept.length ≤ _
    omega
  · rw [drop_one_toNat, hcount]
    show _ = min (_ - ev.kept.length) _
    omega

theorem EvidenceInv.keep (h : EvidenceInv headers ev) {header : String × Bytes}
    {entry : String × String} (hcounts : counts header = true) (hkept : KeptFrom entry header)
    (hentries : ev.kept.length < HDR_EVIDENCE_MAX_ENTRIES)
    (hbudget : ev.used + (Text.len entry.1 + Text.len entry.2) ≤ HDR_EVIDENCE_BUDGET) :
    EvidenceInv (headers ++ [header])
      { ev with
        kept := ev.kept ++ [entry]
        used := ev.used + (Text.len entry.1 + Text.len entry.2) } := by
  have hcount : (headers ++ [header]).countP counts = headers.countP counts + 1 := by
    rw [List.countP_append, List.countP_singleton, hcounts]
    rfl
  have hlen : (ev.kept ++ [entry]).length = ev.kept.length + 1 := List.length_append
  obtain ⟨picked, hsub, hpicked⟩ := h.picked
  have hsome := h.some_dropped
  have hcounted := h.counted
  refine ⟨?_, ?_, hbudget, ⟨picked ++ [header], hsub.append_right _, ?_⟩, ?_, ?_⟩
  · show (ev.kept ++ [entry]).length ≤ _
    omega
  · show _ = evidence_bytes (ev.kept ++ [entry])
    unfold evidence_bytes
    rw [List.map_append, List.sum_append, h.used]
    rfl
  · exact List.rel_append hpicked (.cons hkept .nil)
  · show (ev.kept ++ [entry]).length ≤ _
    omega
  · show ev.dropped.toNat = min (_ - (ev.kept ++ [entry]).length) _
    rw [hcount, hlen]
    omega

/-- One turn of the loop. -/
theorem EvidenceInv.collect (h : EvidenceInv headers ev) (header : String × Bytes) :
    EvidenceInv (headers ++ [header]) (ev.collect header) := by
  obtain ⟨name, raw⟩ := header
  unfold Evidence.collect
  dsimp only
  by_cases hdenied : hdr_evidence_denied name = true
  · rw [if_pos hdenied]
    exact h.pass (by simp [counts, hdenied])
  rw [if_neg hdenied]
  rw [Bool.not_eq_true] at hdenied
  by_cases hlong : HDR_NAME_CAP < Text.len name
  · rw [if_pos hlong]
    exact h.drop (by simp [counts, hdenied, hlong])
  rw [if_neg hlong]
  cases hread : HeaderMap.value_to_str raw with
  | none => exact h.pass (by simp [counts, hdenied, hlong, header_text, hread])
  | some text =>
    dsimp only
    rw [truncated_isEmpty]
    by_cases hblank : Text.is_blank text = true
    · rw [if_pos hblank]
      exact h.pass (by simp [counts, hdenied, hlong, header_text, hread, hblank])
    rw [if_neg hblank]
    have hcounts : counts (name, raw) = true := by
      simp [counts, hdenied, header_text, hread, hblank]
    split
    · exact h.drop hcounts
    · rename_i hroom
      rw [not_or, Nat.not_le, Nat.not_lt] at hroom
      refine h.keep hcounts ⟨rfl, hdenied, Nat.le_of_not_lt hlong, ⟨text, hread, rfl⟩, ?_⟩
        hroom.1 hroom.2
      intro hempty
      have htext := truncated_isEmpty text
      rw [show truncate_header_value (Text.trim text) HDR_VALUE_CAP = "" from hempty] at htext
      exact hblank htext.symm

/-! ### All headers -/

theorem evidence_inv (headers : HeaderMap) :
    EvidenceInv headers (headers.foldl Evidence.collect {}) := by
  -- the headers in front are done, the rest is to come
  suffices hrun : ∀ (rest done : HeaderMap) (ev : Evidence), EvidenceInv done ev →
      EvidenceInv (done ++ rest) (rest.foldl Evidence.collect ev) by
    exact hrun headers [] {} ⟨Nat.zero_le _, rfl, Nat.zero_le _, ⟨[], .slnil, .nil⟩,
      Nat.le_refl _, rfl⟩
  intro rest
  induction rest with
  | nil =>
    intro done ev h
    rw [List.append_nil]
    exact h
  | cons header rest ih =>
    intro done ev h
    have hrest := ih (done ++ [header]) (ev.collect header) (h.collect header)
    rwa [List.append_assoc] at hrest

/-- A barred header has no turn in the loop. -/
theorem collect_allowed (headers : HeaderMap) : ∀ ev : Evidence,
    (headers.filter fun header => !hdr_evidence_denied header.1).foldl Evidence.collect ev
      = headers.foldl Evidence.collect ev := by
  induction headers with
  | nil => exact fun ev => rfl
  | cons header headers ih =>
    intro ev
    by_cases hdenied : hdr_evidence_denied header.1 = true
    · have hpass : ev.collect header = ev := by
        unfold Evidence.collect
        exact if_pos hdenied
      rw [List.filter_cons_of_neg (by simp [hdenied]), List.foldl_cons, hpass]
      exact ih ev
    · rw [List.filter_cons_of_pos (by simp [hdenied]), List.foldl_cons, List.foldl_cons]
      exact ih (ev.collect header)

/-- The evidence of a request: within the bounds, in header order, every
    candidate kept or counted. The count stops at the largest `u32`, more
    headers than a header map holds. -/
structure EvidenceBounded (headers : HeaderMap) (kept : List (String × String))
    (dropped : UInt32) : Prop where
  entries : kept.length ≤ HDR_EVIDENCE_MAX_ENTRIES
  budget : evidence_bytes kept ≤ HDR_EVIDENCE_BUDGET
  picked : ∃ picked : HeaderMap, picked.Sublist headers ∧ List.Forall₂ KeptFrom kept picked
  counted : headers.countP counts < 2 ^ 32 → kept.length + dropped.toNat = headers.countP counts
  saturated : dropped.toNat = min (headers.countP counts - kept.length) 0xFFFFFFFF

/-- **Header evidence**: of every list of headers the evidence is bounded, and
    the same for every list with the same headers that are not barred. -/
theorem evidence_bounded (headers : HeaderMap) :
    EvidenceBounded headers (collect_hdr_evidence headers).1 (collect_hdr_evidence headers).2 ∧
      ∀ headers' : HeaderMap,
        (headers'.filter fun header => !hdr_evidence_denied header.1)
            = headers.filter (fun header => !hdr_evidence_denied header.1) →
          collect_hdr_evidence headers' = collect_hdr_evidence headers := by
  have h := evidence_inv headers
  constructor
  · refine ⟨h.entries, ?_, h.picked, ?_, h.counted⟩
    · have hused := h.budget
      rw [h.used] at hused
      exact hused
    · intro hfits
      have hsome := h.some_dropped
      have hcounted := h.counted
      show (headers.foldl Evidence.collect {}).kept.length
        + (headers.foldl Evidence.collect {}).dropped.toNat = _
      omega
  · intro headers' hsame
    unfold collect_hdr_evidence
    rw [← collect_allowed headers', hsame, collect_allowed headers]

end AgentTraceGateway
