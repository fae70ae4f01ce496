import AgentTraceGateway.Feed
import AgentTraceGateway.Lib.Words
import AgentTraceGateway.Protocol.Tables

/-! # Usage over Several Frames

  A stream may report its usage in parts. The exclusive buckets are derived
  frame by frame and the parts merged, a later count replacing an earlier
  one. Deriving once, from the last reported counts, is what the buckets
  stand for: the two agree as long as the caches take as much off the input
  in its own frame as they do in the end. -/

namespace AgentTraceGateway

/-! ### Counts as reported -/

/-- A protocol whose counts are left as they are reported. -/
def ProtocolDescriptor.as_reported (d : ProtocolDescriptor) : ProtocolDescriptor :=
  { d with usage_inclusion := .exclusive }

/-- The counts of a frame, nothing subtracted. -/
def reported (d : ProtocolDescriptor) (v : Value) : Option TurnUsage :=
  usage_from_sse_frame d.as_reported v

/-- The exclusive buckets of inclusive counts. -/
def exclusive_buckets (u : TurnUsage) : TurnUsage :=
  { u with
    input_tokens :=
      subtract_known (subtract_known u.input_tokens u.cache_read_tokens) u.cache_creation_tokens }

/-- Field by field, the last count reported. -/
def last_reported (us : List TurnUsage) : TurnUsage where
  input_tokens := (us.filterMap (·.input_tokens)).getLast?
  output_tokens := (us.filterMap (·.output_tokens)).getLast?
  cache_read_tokens := (us.filterMap (·.cache_read_tokens)).getLast?
  cache_creation_tokens := (us.filterMap (·.cache_creation_tokens)).getLast?
  total_tokens := (us.filterMap (·.total_tokens)).getLast?

/-- What the caches take off the input. -/
def TurnUsage.cached (u : TurnUsage) : Nat :=
  (u.cache_read_tokens.getD 0).toNat + (u.cache_creation_tokens.getD 0).toNat

/-- The last of the reports that has an input count. -/
def input_report (us : List TurnUsage) : Option TurnUsage :=
  (us.filter fun u => u.input_tokens.isSome).getLast?

/-- The usage of a stream is derived once, from the last counts it reports,
    and its buckets do not add up to more than the input they came from. -/
structure DerivedOnce (d : ProtocolDescriptor) (values : List Value) : Prop where
  buckets : (feed_values d {} values).usage
    = if (values.filterMap (reported d)).isEmpty then none
      else some (exclusive_buckets (last_reported (values.filterMap (reported d))))
  bounded : ∀ u i, (feed_values d {} values).usage = some u →
    (last_reported (values.filterMap (reported d))).input_tokens = some i →
    (last_reported (values.filterMap (reported d))).cached ≤ i.toNat →
    (u.input_tokens.getD 0).toNat + u.cached ≤ i.toNat

/-- The input loses as much to the cache counts of its own report as to the
    last ones. -/
def CachedAlike (us : List TurnUsage) : Prop :=
  ∀ u i, input_report us = some u → u.input_tokens = some i →
    u.cached = (last_reported us).cached ∨
      (i.toNat ≤ u.cached ∧ i.toNat ≤ (last_reported us).cached)

/-! ### One frame -/

/-- An inclusive protocol reports the buckets of what it was sent. -/
theorem usage_from_sse_frame_inclusive {d : ProtocolDescriptor}
    (hd : d.usage_inclusion = .inclusive) (v : Value) :
    usage_from_sse_frame d v = (reported d v).map exclusive_buckets := by
  have hobj : ∀ usage, usage_from_obj d usage
      = exclusive_buckets (usage_from_obj d.as_reported usage) := by
    intro usage
    unfold usage_from_obj
    rw [hd]
    rfl
  have hframes : d.as_reported.usage_frames = d.usage_frames := rfl
  unfold reported usage_from_sse_frame
  dsimp only
  rw [hframes, List.map_findSome?]
  congr 1
  funext uf
  rw [Function.comp_apply]
  by_cases hmatch : usage_frame_matches uf (v.index "type").as_str = true
  · by_cases hnull : (resolve_path v uf.obj_path).is_null = true
    · simp only [if_pos hmatch, if_pos hnull, Option.map_none]
    · simp only [if_pos hmatch, if_neg hnull, Option.map_some, hobj]
  · simp only [if_neg hmatch, Option.map_none]

theorem feed_value_usage (d : ProtocolDescriptor) (acc : SseAccum) (v : Value) :
    (feed_value d acc v).usage
      = (usage_from_sse_frame d v).elim acc.usage (merge_usage acc.usage) := by
  have hruled := congrArg Prod.snd (apply_sse_rule_unruled
    { acc with error := (error_marker d.name v).or acc.error } d (v.index "type").as_str v)
  unfold feed_value
  dsimp only
  cases usage_from_sse_frame d v with
  | none => exact hruled
  | some u => exact congrArg (fun usage => merge_usage usage u) hruled

/-! ### All frames -/

theorem last_of_concat {α β : Type} (f : α → Option β) (l : List α) (a : α) :
    ((l ++ [a]).filterMap f).getLast? = (f a).or ((l.filterMap f).getLast?) := by
  cases hf : f a <;> simp [hf]

theorem last_reported_concat (us : List TurnUsage) (u : TurnUsage) :
    last_reported (us ++ [u]) = {
      input_tokens := u.input_tokens.or (last_reported us).input_tokens
      output_tokens := u.output_tokens.or (last_reported us).output_tokens
      cache_read_tokens := u.cache_read_tokens.or (last_reported us).cache_read_tokens
      cache_creation_tokens := u.cache_creation_tokens.or (last_reported us).cache_creation_tokens
      total_tokens := u.total_tokens.or (last_reported us).total_tokens } := by
  simp only [last_reported, last_of_concat]

/-- Merging leaves the last counts. -/
theorem feed_values_usage (d : ProtocolDescriptor) (values : List Value) :
    (feed_values d {} values).usage
      = if (values.filterMap (usage_from_sse_frame d)).isEmpty then none
        else some (last_reported (values.filterMap (usage_from_sse_frame d))) := by
  induction values using List.reverseRecOn with
  | nil => rfl
  | append_singleton values v ih =>
    rw [feed_values_concat, feed_value_usage, ih, List.filterMap_append]
    -- the last frame reports, or the usage stays as it was
    cases hu : usage_from_sse_frame d v with
    | none => simp [hu]
    | some u =>
      have hone : [v].filterMap (usage_from_sse_frame d) = [u] := by simp [hu]
      rw [hone, last_reported_concat]
      cases hall : values.filterMap (usage_from_sse_frame d) with
      | nil =>
        -- the first report is all there is so far
        simp [last_reported, merge_usage]
      | cons first rest => simp [merge_usage]

theorem input_report_concat (us : List TurnUsage) (u : TurnUsage) :
    input_report (us ++ [u]) = if u.input_tokens.isSome then some u else input_report us := by
  by_cases hu : u.input_tokens.isSome = true
  · simp [input_report, hu]
  · simp [input_report, hu]

theorem last_reported_input (us : List TurnUsage) :
    (last_reported us).input_tokens = (input_report us).bind (·.input_tokens) := by
  induction us using List.reverseRecOn with
  | nil => rfl
  | append_singleton us u ih =>
    rw [last_reported_concat, input_report_concat]
    cases hu : u.input_tokens with
    -- a report without an input leaves the earlier one standing
    | none => exact ih
    | some i => simp [hu]

/-- Subtracting in words that saturate. -/
theorem exclusive_input {u : TurnUsage} {i : UInt64} (hi : u.input_tokens = some i) :
    ∃ rest, (exclusive_buckets u).input_tokens = some rest ∧ rest.toNat = i.toNat - u.cached := by
  -- one bucket is taken off, as far as there is something left
  have hsub : ∀ (input : UInt64) (part : Option UInt64), ∃ rest,
      subtract_known (some input) part = some rest ∧
        rest.toNat = input.toNat - (part.getD 0).toNat := by
    intro input part
    cases part with
    | none => exact ⟨input, rfl, rfl⟩
    | some p => exact ⟨saturating_sub input p, rfl, toNat_saturating_sub input p⟩
  obtain ⟨uncached, hread, hfirst⟩ := hsub i u.cache_read_tokens
  obtain ⟨rest, hwrite, hsecond⟩ := hsub uncached u.cache_creation_tokens
  refine ⟨rest, ?_, ?_⟩
  · rw [exclusive_buckets, hi, hread, hwrite]
  · rw [TurnUsage.cached]
    omega

theorem exclusive_input_none {u : TurnUsage} (h : u.input_tokens = none) :
    (exclusive_buckets u).input_tokens = none := by
  rw [exclusive_buckets, h]
  rfl

/-- Of the buckets, only the input is settled in its own frame. -/
theorem last_reported_buckets (us : List TurnUsage) :
    last_reported (us.map exclusive_buckets)
      = { last_reported us with
          input_tokens := (input_report us).bind fun u => (exclusive_buckets u).input_tokens } := by
  induction us using List.reverseRecOn with
  | nil => rfl
  | append_singleton us u ih =>
    rw [List.map_append, List.map_singleton, last_reported_concat, ih, last_reported_concat,
      input_report_concat]
    cases hu : u.input_tokens with
    | none =>
      rw [exclusive_input_none hu]
      rfl
    | some i =>
      obtain ⟨rest, hrest, -⟩ := exclusive_input hu
      simp only [Option.isSome_some, if_true, Option.bind_some, hrest]
      rfl

theorem feed_values_inclusive {d : ProtocolDescriptor} (hd : d.usage_inclusion = .inclusive)
    (values : List Value) :
    (feed_values d {} values).usage
      = if (values.filterMap (reported d)).isEmpty then none
        else some { last_reported (values.filterMap (reported d)) with
          input_tokens := (input_report (values.filterMap (reported d))).bind
            fun u => (exclusive_buckets u).input_tokens } := by
  have hall : values.filterMap (usage_from_sse_frame d)
      = (values.filterMap (reported d)).map exclusive_buckets := by
    rw [List.map_filterMap]
    exact List.filterMap_congr fun v _ => usage_from_sse_frame_inclusive hd v
  rw [feed_values_usage, hall, last_reported_buckets, List.isEmpty_map]

/-! ### Deriving once -/

/-- The input bucket derived from the last counts. -/
theorem input_bucket_iff (us : List TurnUsage) :
    ((input_report us).bind fun u => (exclusive_buckets u).input_tokens)
        = (exclusive_buckets (last_reported us)).input_tokens ↔ CachedAlike us := by
  have hlast := last_reported_input us
  cases hu : input_report us with
  | none =>
    -- no input at all
    rw [hu] at hlast
    refine iff_of_true (exclusive_input_none hlast).symm fun u i h => ?_
    rw [hu] at h
    cases h
  | some u =>
    rw [hu] at hlast
    cases hi : u.input_tokens with
    | none =>
      rw [Option.bind_some, hi] at hlast
      rw [Option.bind_some, exclusive_input_none hi, exclusive_input_none hlast]
      refine iff_of_true rfl fun u' i h h' => ?_
      rw [hu] at h
      cases h
      rw [hi] at h'
      cases h'
    | some i =>
      rw [Option.bind_some, hi] at hlast
      -- the frame's own caches are taken off on the left, the last reported on the right
      obtain ⟨own, hown, hownNat⟩ := exclusive_input hi
      obtain ⟨once, honce, honceNat⟩ := exclusive_input hlast
      rw [Option.bind_some, hown, honce, Option.some.injEq, ← UInt64.toNat_inj, hownNat, honceNat]
      constructor
      · intro hsame u' i' h h'
        rw [hu] at h
        cases h
        rw [hi] at h'
        cases h'
        omega
      · intro halike
        have hcase := halike u i hu hi
        omega

/-- **Usage of inclusive protocols**: what is merged from the frames is the
    derivation from the last reported counts exactly when the caches took
    the same off the input where it was reported. -/
theorem usage_derived_once_iff {d : ProtocolDescriptor} (hd : d.usage_inclusion = .inclusive)
    (values : List Value) : DerivedOnce d values ↔ CachedAlike (values.filterMap (reported d)) := by
  rw [← input_bucket_iff]
  have husage := feed_values_inclusive hd values
  constructor
  · intro h
    have hbuckets := husage.symm.trans h.buckets
    by_cases hempty : (values.filterMap (reported d)).isEmpty = true
    · rw [List.isEmpty_iff.mp hempty]
      rfl
    · rw [if_neg hempty, if_neg hempty] at hbuckets
      exact congrArg TurnUsage.input_tokens (Option.some.inj hbuckets)
  · intro hinput
    have hbuckets : (feed_values d {} values).usage
        = if (values.filterMap (reported d)).isEmpty then none
          else some (exclusive_buckets (last_reported (values.filterMap (reported d)))) := by
      rw [husage, hinput]
      rfl
    refine ⟨hbuckets, ?_⟩
    intro u i hu hi hcached
    rw [hbuckets] at hu
    split at hu
    · cases hu
    · cases hu
      -- the input and what was taken off it add up again
      obtain ⟨rest, hrest, hnat⟩ := exclusive_input hi
      rw [hrest]
      show rest.toNat + (last_reported (values.filterMap (reported d))).cached ≤ i.toNat
      omega

/-- Usage repeated on two chat frames, the cache count only on the first. -/
def repeated_usage : List Value := [
  .object [("usage", .object [("prompt_tokens", .number (.pos_int 100)),
    ("prompt_tokens_details", .object [("cached_tokens", .number (.pos_int 20))])])],
  .object [("usage", .object [("prompt_tokens", .number (.pos_int 100))])]]

/-- The cached tokens are counted twice. -/
theorem repeated_usage_not_derived_once : ¬ DerivedOnce Chat.DESCRIPTOR repeated_usage := by
  intro h
  have hbuckets := h.buckets
  revert hbuckets
  decide

/-- Usage in two parts, the cache count with its input. -/
def split_usage : List Value := [
  .object [("usage", .object [("prompt_tokens", .number (.pos_int 100)),
    ("prompt_tokens_details", .object [("cached_tokens", .number (.pos_int 20))])])],
  .object [("usage", .object [("completion_tokens", .number (.pos_int 7))])]]

theorem usage_derived_once_iff_split :
    (feed_values Chat.DESCRIPTOR {} split_usage).usage
      = some ⟨some 80, some 7, some 20, none, none⟩ ∧
    (DerivedOnce Chat.DESCRIPTOR split_usage ↔
      CachedAlike (split_usage.filterMap (reported Chat.DESCRIPTOR))) :=
  ⟨by decide, usage_derived_once_iff rfl split_usage⟩

end AgentTraceGateway
