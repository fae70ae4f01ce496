import AgentTraceGateway.Protocol.Tables

/-! # Loose Detection and Its Reference

  A path without a registered prefix is matched loosely: an endpoint of some
  table occurs in it and stands at its end, or before a whitelisted
  sub-resource. The reference algorithm wants the sub-resource to be the
  last segment; the code looks at the first segment after the endpoint and
  at no other. -/

namespace AgentTraceGateway

/-- The reference algorithm's window: nothing after the endpoint, or exactly
    one segment, a whitelisted one. -/
def reference_hit (segs ep : List String) : Bool :=
  !ep.isEmpty && !(segs.length < ep.length : Bool) &&
    (List.range (segs.length - ep.length + 1)).any fun start =>
      (segs.drop start).take ep.length == ep &&
        match segs.drop (start + ep.length) with
        | [] => true
        | [t] => LOOSE_SUBRESOURCES.contains t
        | _ :: _ :: _ => false

/-- The reference algorithm: the name of the table, and whether it matched
    loosely. -/
def reference (path : String) : Option (String × Bool) :=
  match detect path with
  | some d => some (d.name, false)
  | none =>
    (DESCRIPTORS.find? fun d =>
      d.loose_endpoints.any fun ep => reference_hit (segments path) (segments ep)).map
        fun d => (d.name, true)

/-! ### Windows -/

/-- The endpoint occurs in the path, with `tail` after it. -/
def FollowedBy (segs ep tail : List String) : Prop := ep ≠ [] ∧ ∃ l, segs = l ++ (ep ++ tail)

/-- Before and after a window. -/
theorem window_split {segs ep : List String} {start : Nat}
    (h : (segs.drop start).take ep.length = ep) :
    segs = segs.take start ++ (ep ++ segs.drop (start + ep.length)) := by
  calc segs = segs.take start ++ segs.drop start := (List.take_append_drop start segs).symm
    _ = segs.take start
        ++ ((segs.drop start).take ep.length ++ (segs.drop start).drop ep.length) := by
      rw [List.take_append_drop ep.length (segs.drop start)]
    _ = segs.take start ++ (ep ++ segs.drop (start + ep.length)) := by
      rw [h, List.drop_drop]

/-- Trying every start finds every occurrence. -/
theorem any_window_iff (segs ep : List String) (anchored : List String → Bool) :
    ((List.range (segs.length + 1 - ep.length)).any fun start =>
        (segs.drop start).take ep.length == ep && anchored (segs.drop (start + ep.length))) = true ↔
      ∃ tail, (∃ l, segs = l ++ (ep ++ tail)) ∧ anchored tail = true := by
  rw [List.any_eq_true]
  constructor
  · rintro ⟨start, -, hwindow⟩
    rw [Bool.and_eq_true, beq_iff_eq] at hwindow
    exact ⟨_, ⟨_, window_split hwindow.1⟩, hwindow.2⟩
  · rintro ⟨tail, ⟨l, rfl⟩, hanchored⟩
    refine ⟨l.length, ?_, ?_⟩
    · simp only [List.mem_range, List.length_append]
      omega
    · have hdrop : (l ++ (ep ++ tail)).drop (l.length + ep.length) = tail := by
        rw [← List.append_assoc, ← List.length_append, List.drop_left]
      rw [hdrop, List.drop_left, List.take_left]
      simpa using hanchored

/-- What the code wants behind a window: its first segment decides. -/
def loosely_anchored : List String → Bool
  | [] => true
  | t :: _ => LOOSE_SUBRESOURCES.contains t

theorem loose_hit_iff (segs ep : List String) :
    loose_hit segs ep = true ↔ FollowedBy segs ep [] ∨
      ∃ t ∈ LOOSE_SUBRESOURCES, ∃ rest, FollowedBy segs ep (t :: rest) := by
  have hwindow := any_window_iff segs ep loosely_anchored
  rw [loose_hit, Bool.and_eq_true]
  refine (and_congr_right fun _ => hwindow).trans ?_
  rw [Bool.not_eq_true', List.isEmpty_eq_false_iff]
  constructor
  · rintro ⟨hep, tail, hl, hanchored⟩
    cases tail with
    | nil => exact Or.inl ⟨hep, hl⟩
    | cons t rest => exact Or.inr ⟨t, by simpa [loosely_anchored] using hanchored, rest, hep, hl⟩
  · rintro (⟨hep, hl⟩ | ⟨t, ht, rest, hep, hl⟩)
    · exact ⟨hep, [], hl, rfl⟩
    · exact ⟨hep, t :: rest, hl, by simpa [loosely_anchored] using ht⟩

theorem reference_hit_iff (segs ep : List String) :
    reference_hit segs ep = true ↔ FollowedBy segs ep [] ∨
      ∃ t ∈ LOOSE_SUBRESOURCES, FollowedBy segs ep [t] := by
  have hwindow := any_window_iff segs ep fun tail =>
    match tail with
    | [] => true
    | [t] => LOOSE_SUBRESOURCES.contains t
    | _ :: _ :: _ => false
  -- the reference counts its windows without an endpoint longer than the path
  have hrange : reference_hit segs ep = (!ep.isEmpty &&
      (List.range (segs.length + 1 - ep.length)).any fun start =>
        (segs.drop start).take ep.length == ep &&
          match segs.drop (start + ep.length) with
          | [] => true
          | [t] => LOOSE_SUBRESOURCES.contains t
          | _ :: _ :: _ => false) := by
    unfold reference_hit
    by_cases hlt : segs.length < ep.length
    · have hnone : segs.length + 1 - ep.length = 0 := by omega
      simp [hlt, hnone]
    · have hsame : segs.length + 1 - ep.length = segs.length - ep.length + 1 := by omega
      simp [hlt, hsame]
  rw [hrange, Bool.and_eq_true]
  refine (and_congr_right fun _ => hwindow).trans ?_
  rw [Bool.not_eq_true', List.isEmpty_eq_false_iff]
  constructor
  · rintro ⟨hep, tail, hl, hanchored⟩
    -- its whole tail is looked at, where the code looks at the first segment
    match tail with
    | [] => exact Or.inl ⟨hep, hl⟩
    | [t] => exact Or.inr ⟨t, by simpa using hanchored, hep, hl⟩
    | _ :: _ :: _ => cases hanchored
  · rintro (⟨hep, hl⟩ | ⟨t, ht, hep, hl⟩)
    · exact ⟨hep, [], hl, rfl⟩
    · exact ⟨hep, [t], hl, by simpa using ht⟩

/-! ### First matches -/

/-- The first match of a weaker test has the name of the first match of a
    stronger one exactly where each element that passes the weaker test has
    one at or before it that passes the stronger. -/
theorem find?_name_iff {α β : Type} (name : α → β) (weak strong : α → Bool)
    (hweaker : ∀ a, strong a = true → weak a = true) : ∀ l : List α, (l.map name).Nodup →
      ((l.find? weak).map name = (l.find? strong).map name ↔
        ∀ before a after, l = before ++ a :: after → weak a = true →
          ∃ b ∈ before ++ [a], strong b = true) := by
  intro l
  induction l with
  | nil => simp
  | cons x l ih =>
    intro hnames
    rw [List.map_cons, List.nodup_cons] at hnames
    cases hstrong : strong x with
    | true =>
      rw [List.find?_cons_of_pos (hweaker x hstrong), List.find?_cons_of_pos hstrong]
      refine ⟨fun _ before a after hl _ => ⟨x, ?_, hstrong⟩, fun _ => rfl⟩
      cases before with
      | nil => cases hl; exact List.mem_cons_self
      | cons y before => cases hl; exact List.mem_cons_self
    | false =>
      rw [List.find?_cons_of_neg (p := strong) (by simp [hstrong])]
      cases hweak : weak x with
      | true =>
        -- `x` is found by the weak test, and its name is no other element's
        rw [List.find?_cons_of_pos hweak]
        constructor
        · intro heq
          obtain ⟨y, hy, hname⟩ := Option.map_eq_some_iff.mp heq.symm
          have hmem := List.mem_map_of_mem (f := name) (List.mem_of_find?_eq_some hy)
          rw [hname] at hmem
          exact absurd hmem hnames.1
        · intro hall
          obtain ⟨b, hb, hpass⟩ := hall [] x l rfl hweak
          obtain rfl : b = x := by simpa using hb
          rw [hstrong] at hpass
          cases hpass
      | false =>
        rw [List.find?_cons_of_neg (p := weak) (by simp [hweak]), ih hnames.2]
        constructor
        · intro hall before a after hl ha
          cases before with
          | nil =>
            cases hl
            rw [hweak] at ha
            cases ha
          | cons y before =>
            cases hl
            obtain ⟨b, hb, hpass⟩ := hall before a after rfl ha
            exact ⟨b, List.mem_cons_of_mem x hb, hpass⟩
        · rintro hall before a after rfl ha
          obtain ⟨b, hb, hpass⟩ := hall (x :: before) a after rfl ha
          rcases List.mem_cons.mp hb with rfl | hb
          · rw [hstrong] at hpass
            cases hpass
          · exact ⟨b, hb, hpass⟩

/-! ### Where the two agree -/

/-- An endpoint of the table ends the path, or stands before a last,
    whitelisted segment. -/
def Anchored (d : ProtocolDescriptor) (path : String) : Prop :=
  ∃ ep ∈ d.loose_endpoints, FollowedBy (segments path) (segments ep) [] ∨
    ∃ t ∈ LOOSE_SUBRESOURCES, FollowedBy (segments path) (segments ep) [t]

/-- An endpoint of the table stands before a whitelisted segment that is not
    the last one. -/
def Overlong (d : ProtocolDescriptor) (path : String) : Prop :=
  ∃ ep ∈ d.loose_endpoints, ∃ t ∈ LOOSE_SUBRESOURCES, ∃ s rest,
    FollowedBy (segments path) (segments ep) (t :: s :: rest)

theorem reference_match_iff (d : ProtocolDescriptor) (path : String) :
    (d.loose_endpoints.any fun ep => reference_hit (segments path) (segments ep)) = true ↔
      Anchored d path := by
  simp only [List.any_eq_true, reference_hit_iff, Anchored]

theorem loose_match_iff (d : ProtocolDescriptor) (path : String) :
    (d.loose_endpoints.any fun ep => loose_hit (segments path) (segments ep)) = true ↔
      Anchored d path ∨ Overlong d path := by
  simp only [List.any_eq_true, loose_hit_iff, Anchored, Overlong]
  constructor
  · rintro ⟨ep, hep, hend | ⟨t, ht, rest, htail⟩⟩
    · exact Or.inl ⟨ep, hep, Or.inl hend⟩
    · cases rest with
      | nil => exact Or.inl ⟨ep, hep, Or.inr ⟨t, ht, htail⟩⟩
      | cons s rest => exact Or.inr ⟨ep, hep, t, ht, s, rest, htail⟩
  · rintro (⟨ep, hep, hend | ⟨t, ht, htail⟩⟩ | ⟨ep, hep, t, ht, s, rest, htail⟩)
    · exact ⟨ep, hep, Or.inl hend⟩
    · exact ⟨ep, hep, Or.inr ⟨t, ht, [], htail⟩⟩
    · exact ⟨ep, hep, Or.inr ⟨t, ht, s :: rest, htail⟩⟩

/-- Detection is the reference algorithm on a path exactly where the path has
    a registered prefix, or every table with an over-long window is preceded
    by an anchored one or is anchored itself. -/
theorem detect_path_reference_iff (path : String) :
    ((detect_path path).map fun m => (m.descriptor.name, m.loose)) = reference path ↔
      (detect path).isSome = true ∨
        ∀ before d after, DESCRIPTORS = before ++ d :: after → Overlong d path →
          ∃ d' ∈ before ++ [d], Anchored d' path := by
  unfold detect_path reference
  cases hdetect : detect path with
  | some d => simp
  | none =>
    -- the names tell the tables apart, so the first match is compared by name
    have hnames : (DESCRIPTORS.map fun d => (d.name, true)).Nodup := by decide
    have hfirst := find?_name_iff (fun d : ProtocolDescriptor => (d.name, true))
      (fun d => d.loose_endpoints.any fun ep => loose_hit (segments path) (segments ep))
      (fun d => d.loose_endpoints.any fun ep => reference_hit (segments path) (segments ep))
      (fun d hd => (loose_match_iff d path).mpr (Or.inl ((reference_match_iff d path).mp hd)))
      DESCRIPTORS hnames
    simp only [Option.map_map, Option.isSome_none, Bool.false_eq_true, false_or]
    refine hfirst.trans ?_
    simp only [loose_match_iff, reference_match_iff]
    constructor
    · intro hall before d after hl hover
      exact hall before d after hl (Or.inr hover)
    · rintro hall before d after hl (hanchored | hover)
      · exact ⟨d, by simp, hanchored⟩
      · exact hall before d after hl hover

/-- Two segments after `messages`: the reference algorithm matches nothing. -/
theorem overlong_tail_detected :
    let path := "/api/messages/count_tokens/x"
    ((detect_path path).map fun m => (m.descriptor.name, m.loose))
        = some ("anthropic.messages", true) ∧
      reference path = none := by
  decide +kernel

end AgentTraceGateway
