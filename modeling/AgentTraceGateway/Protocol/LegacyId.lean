import AgentTraceGateway.Lib.Slice
import AgentTraceGateway.Protocol.Session

/-! # The Legacy Composite

  The reader of `user_<64 hex>_account_<hex>_session_<36>` slices the text at
  byte offsets that a search over its characters returned. Here the slices
  may fail; they never do, and what is accepted is the grammar, no text more
  and none less. -/

namespace AgentTraceGateway

/-! ### The reader with its slices -/

/-- `split_at_class` as the code slices. The outer `none` is a panic. -/
def split_at_class_sliced (s : List Char) (n : Nat) (allow_dash : Bool) :
    Option (Option (List Char × List Char)) :=
  let stop := class_end n allow_dash 0 s
  if stop ≠ n then some none else (Text.slice_at stop s).map some

/-- `claude_code_legacy_parts` as the code slices. -/
def claude_code_legacy_parts_sliced (user_id : String) :
    Option (Option (String × Option String)) :=
  match Text.strip_prefix_chars user_id.toList "user_".toList with
  | none => some none
  | some rest =>
    (split_at_class_sliced rest 64 false).bind fun
    | none => some none
    | some (_, rest) =>
      match Text.strip_prefix_chars rest "_account_".toList with
      | none => some none
      | some rest =>
        let acct_len := Text.find_offset (fun c => !in_class true c) rest
        (Text.slice_at acct_len rest).bind fun (token, rest) =>
          let account := if 0 < acct_len then some (String.ofList token) else none
          match Text.strip_prefix_chars rest "_session_".toList with
          | none => some none
          | some rest =>
            (split_at_class_sliced rest 36 true).map fun
            | none => none
            | some (uuid36, tail) =>
              if !tail.isEmpty || !uuid36.contains '-' then none
              else some (String.ofList (uuid36.map Text.ascii_lower), account)

/-! ### The grammar -/

/-- The parts of a composite. -/
structure CompositeParts (hex account uuid : List Char) : Prop where
  hex_len : hex.length = 64
  hex_class : ∀ c ∈ hex, in_class false c = true
  account_class : ∀ c ∈ account, in_class true c = true
  uuid_len : uuid.length = 36
  uuid_class : ∀ c ∈ uuid, in_class true c = true
  dashed : '-' ∈ uuid

/-- A composite spelled from its parts. -/
def composite (hex account uuid : List Char) : List Char :=
  "user_".toList ++ (hex ++ ("_account_".toList ++ (account ++ ("_session_".toList ++ uuid))))

/-! ### Runs of a class -/

/-- Every character of the classes is one byte. -/
theorem utf8Size_of_in_class {allow_dash : Bool} {c : Char} (h : in_class allow_dash c = true) :
    c.utf8Size = 1 := by
  have hascii : c.toNat ≤ 0x7F := by
    unfold in_class Text.is_ascii_hexdigit at h
    simp only [Bool.or_eq_true, Bool.and_eq_true, decide_eq_true_eq, beq_iff_eq] at h
    rcases h with ((h | h) | h) | ⟨-, rfl⟩
    · omega
    · omega
    · omega
    · decide
  have hval : c.val ≤ 0x7F := UInt32.le_iff_toNat_le.mpr hascii
  exact Char.utf8Size_eq_one_iff.mpr hval

/-- The search stops at `n` exactly behind `n` characters of the class. -/
theorem class_end_eq_iff (n : Nat) (allow_dash : Bool) : ∀ (s : List Char) (off : Nat), off ≤ n →
    (class_end n allow_dash off s = n ↔
      n - off ≤ s.length ∧ ∀ c ∈ s.take (n - off), in_class allow_dash c = true) := by
  intro s
  induction s with
  | nil =>
    intro off hoff
    simp only [class_end, List.length_nil, List.take_nil, List.not_mem_nil, false_implies,
      implies_true, and_true]
    omega
  | cons c s ih =>
    intro off hoff
    unfold class_end
    by_cases hstop : n ≤ off ∨ (!in_class allow_dash c) = true
    · rw [if_pos hstop]
      rcases hstop with hle | hout
      · have hzero : n - off = 0 := by omega
        rw [hzero, List.take_zero]
        simp only [Nat.zero_le, List.not_mem_nil, false_implies, implies_true, and_true, iff_true]
        omega
      · by_cases hle : n ≤ off
        · have hzero : n - off = 0 := by omega
          rw [hzero, List.take_zero]
          simp only [Nat.zero_le, List.not_mem_nil, false_implies, implies_true, and_true, iff_true]
          omega
        · refine iff_of_false (by omega) ?_
          rintro ⟨-, hall⟩
          obtain ⟨k, hk⟩ : ∃ k, n - off = k + 1 := ⟨n - off - 1, by omega⟩
          rw [hk, List.take_succ_cons] at hall
          rw [hall c List.mem_cons_self] at hout
          cases hout
    · rw [if_neg hstop]
      rw [not_or, Bool.not_eq_true', Bool.not_eq_false] at hstop
      obtain ⟨hlt, hin⟩ := hstop
      obtain ⟨k, hk⟩ : ∃ k, n - off = k + 1 := ⟨n - off - 1, by omega⟩
      have hnext : n - (off + 1) = k := by omega
      rw [utf8Size_of_in_class hin, ih (off + 1) (by omega), hnext, hk, List.take_succ_cons,
        List.length_cons, List.forall_mem_cons]
      simp only [hin, true_and, Nat.add_le_add_iff_right]

/-- Taking `n` characters of a class off a text. -/
theorem split_at_class_eq_some_iff {s front rest : List Char} {n : Nat} {allow_dash : Bool} :
    split_at_class s n allow_dash = some (front, rest) ↔
      s = front ++ rest ∧ front.length = n ∧ ∀ c ∈ front, in_class allow_dash c = true := by
  have hend := class_end_eq_iff n allow_dash s 0 (Nat.zero_le n)
  rw [Nat.sub_zero] at hend
  unfold split_at_class
  constructor
  · intro h
    split at h
    · cases h
    · rename_i hstop
      obtain ⟨hlen, hall⟩ := hend.mp (not_not.mp hstop)
      cases h
      exact ⟨(List.take_append_drop n s).symm, List.length_take_of_le hlen, hall⟩
  · rintro ⟨rfl, rfl, hall⟩
    rw [List.take_left] at hend
    have hstop := hend.mpr ⟨by rw [List.length_append]; omega, hall⟩
    rw [if_neg (not_not.mpr hstop), List.take_left, List.drop_left]

/-- The slices of `split_at_class` are between two characters. -/
theorem split_at_class_sliced_eq (s : List Char) (n : Nat) (allow_dash : Bool) :
    split_at_class_sliced s n allow_dash = some (split_at_class s n allow_dash) := by
  have hend := class_end_eq_iff n allow_dash s 0 (Nat.zero_le n)
  rw [Nat.sub_zero] at hend
  unfold split_at_class_sliced split_at_class
  dsimp only
  by_cases hstop : class_end n allow_dash 0 s = n
  · rw [if_neg (not_not.mpr hstop), if_neg (not_not.mpr hstop)]
    obtain ⟨hlen, hall⟩ := hend.mp hstop
    -- the characters before the end are one byte each
    have hbytes : Text.byte_len (s.take n) = class_end n allow_dash 0 s := by
      rw [Text.byte_len_of_ascii fun c hc => utf8Size_of_in_class (hall c hc),
        List.length_take_of_le hlen, hstop]
    have hslice := Text.slice_at_append (s.take n) (s.drop n)
    rw [List.take_append_drop, hbytes] at hslice
    rw [hslice]
    rfl
  · rw [if_pos hstop, if_pos hstop]

/-! ### Reading -/

theorem strip_prefix_append (pat rest : List Char) :
    Text.strip_prefix_chars (pat ++ rest) pat = some rest := by
  apply List.dropPrefix?_eq_some_iff.mpr
  exact ⟨pat, rfl, by simp⟩

/-- The account run ends in front of the session mark. -/
theorem account_run {account rest : List Char} (h : ∀ c ∈ account, in_class true c = true) :
    (account ++ ("_session_".toList ++ rest)).takeWhile (in_class true) = account ∧
      (account ++ ("_session_".toList ++ rest)).dropWhile (in_class true)
        = "_session_".toList ++ rest := by
  have hmark : "_session_".toList ++ rest = '_' :: ("session_".toList ++ rest) := rfl
  rw [hmark, List.takeWhile_append_of_pos h, List.dropWhile_append_of_pos h,
    List.takeWhile_cons_of_neg (by decide), List.dropWhile_cons_of_neg (by decide),
    List.append_nil]
  exact ⟨rfl, rfl⟩

/-- The account run is empty exactly when it has no bytes. -/
theorem account_len_pos (rest : List Char) :
    (if 0 < Text.find_offset (fun c => !in_class true c) rest then
        some (String.ofList (rest.takeWhile (in_class true))) else none)
      = if (rest.takeWhile (in_class true)).isEmpty then none
        else some (String.ofList (rest.takeWhile (in_class true))) := by
  cases rest with
  | nil => rfl
  | cons c rest =>
    rw [Text.find_offset, List.takeWhile_cons]
    cases in_class true c with
    | true =>
      have hpos := c.utf8Size_pos
      rw [Bool.not_true, if_neg Bool.false_ne_true, if_pos (by omega)]
      rfl
    | false => rfl

/-- What is read of a composite. -/
def composite_read (account uuid : List Char) : String × Option String :=
  (String.ofList (uuid.map Text.ascii_lower),
    if account.isEmpty then none else some (String.ofList account))

theorem claude_code_legacy_parts_eq_some_iff {user_id : String} {parts : String × Option String} :
    claude_code_legacy_parts user_id = some parts ↔
      ∃ hex account uuid, CompositeParts hex account uuid ∧
        user_id.toList = composite hex account uuid ∧ parts = composite_read account uuid := by
  unfold claude_code_legacy_parts split_at_hex
  constructor
  · intro h
    obtain ⟨rest₁, huser, h₁⟩ := Option.bind_eq_some_iff.mp h
    obtain ⟨⟨hex, rest₂⟩, hhex, h₂⟩ := Option.bind_eq_some_iff.mp h₁
    obtain ⟨rest₃, haccount, h₃⟩ := Option.bind_eq_some_iff.mp h₂
    obtain ⟨rest₄, hsession, h₄⟩ := Option.bind_eq_some_iff.mp h₃
    obtain ⟨⟨uuid, tail⟩, huuid, hread⟩ := Option.bind_eq_some_iff.mp h₄
    obtain ⟨rfl, hhexlen, hhexclass⟩ := split_at_class_eq_some_iff.mp hhex
    obtain ⟨rfl, huuidlen, huuidclass⟩ := split_at_class_eq_some_iff.mp huuid
    have huser := Text.strip_prefix_chars_eq huser
    have haccount := Text.strip_prefix_chars_eq haccount
    have hsession := Text.strip_prefix_chars_eq hsession
    dsimp only at hread
    by_cases hend : (!tail.isEmpty || !uuid.contains '-') = true
    · rw [if_pos hend] at hread
      cases hread
    · rw [if_neg hend] at hread
      rw [Bool.or_eq_true, Bool.not_eq_true', Bool.not_eq_true', not_or, Bool.not_eq_false,
        Bool.not_eq_false] at hend
      obtain rfl := List.isEmpty_iff.mp hend.1
      cases hread
      refine ⟨hex, rest₃.takeWhile (in_class true), uuid,
        ⟨hhexlen, hhexclass, fun c hc => List.mem_takeWhile_imp hc, huuidlen, huuidclass,
          List.contains_iff_mem.mp hend.2⟩, ?_, rfl⟩
      rw [List.append_nil] at hsession
      rw [huser, haccount, composite, ← hsession, List.takeWhile_append_dropWhile]
  · rintro ⟨hex, account, uuid, hparts, htext, rfl⟩
    obtain ⟨hrun, hmark⟩ := @account_run account uuid hparts.account_class
    have hhex := @split_at_class_eq_some_iff (hex ++ ("_account_".toList ++ (account
      ++ ("_session_".toList ++ uuid)))) hex _ 64 false |>.mpr ⟨rfl, hparts.hex_len, hparts.hex_class⟩
    have huuid := @split_at_class_eq_some_iff uuid uuid [] 36 true |>.mpr
      ⟨(List.append_nil uuid).symm, hparts.uuid_len, hparts.uuid_class⟩
    rw [htext, composite, strip_prefix_append, Option.bind_some, hhex, Option.bind_some]
    simp only [strip_prefix_append, Option.bind_some, hrun, hmark, huuid]
    have hdash : uuid.contains '-' = true := List.contains_iff_mem.mpr hparts.dashed
    rw [hdash]
    rfl

/-- No slice panics. -/
theorem claude_code_legacy_parts_sliced_eq (user_id : String) :
    claude_code_legacy_parts_sliced user_id = some (claude_code_legacy_parts user_id) := by
  unfold claude_code_legacy_parts_sliced claude_code_legacy_parts split_at_hex
  cases Text.strip_prefix_chars user_id.toList "user_".toList with
  | none => rfl
  | some rest₁ =>
    simp only [split_at_class_sliced_eq, Option.bind_some]
    cases split_at_class rest₁ 64 false with
    | none => rfl
    | some taken =>
      obtain ⟨hex, rest₂⟩ := taken
      simp only [Option.bind_some]
      cases Text.strip_prefix_chars rest₂ "_account_".toList with
      | none => rfl
      | some rest₃ =>
        -- the run ends where the search for its end stops
        simp only [Text.slice_at_find, Bool.not_not, Option.bind_some]
        cases Text.strip_prefix_chars (rest₃.dropWhile (in_class true)) "_session_".toList with
        | none => rfl
        | some rest₄ =>
          simp only [Option.map_some, Option.bind_some]
          cases split_at_class rest₄ 36 true with
          | none => rfl
          | some taken =>
            obtain ⟨uuid, tail⟩ := taken
            simp only [Option.bind_some, account_len_pos]

/-- **Legacy ids**: for every text the reader returns, and what it returns is
    read of a composite of the grammar, if the text is one. -/
theorem legacy_parts_of_grammar (user_id : String) :
    ∃ read, claude_code_legacy_parts_sliced user_id = some read ∧
      ∀ parts, read = some parts ↔
        ∃ hex account uuid, CompositeParts hex account uuid ∧
          user_id.toList = composite hex account uuid ∧ parts = composite_read account uuid :=
  ⟨claude_code_legacy_parts user_id, claude_code_legacy_parts_sliced_eq user_id,
    fun _ => claude_code_legacy_parts_eq_some_iff⟩

end AgentTraceGateway
