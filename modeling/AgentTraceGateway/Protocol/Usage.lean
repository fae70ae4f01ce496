import AgentTraceGateway.Protocol.Descriptor

/-! # Usage Extraction

  Table-driven readers producing the exclusive usage buckets. Protocols
  whose input count includes the cache counts have them subtracted here. -/

namespace AgentTraceGateway

/-- `u64::saturating_sub`. -/
def saturating_sub (a b : UInt64) : UInt64 := if b ≤ a then a - b else 0

theorem toNat_saturating_sub (a b : UInt64) :
    (saturating_sub a b).toNat = a.toNat - b.toNat := by
  unfold saturating_sub
  by_cases hle : b ≤ a
  · rw [if_pos hle, UInt64.toNat_sub_of_le a b hle]
  · have hlt := UInt64.lt_iff_toNat_lt.mp (UInt64.not_le.mp hle)
    rw [if_neg hle, Nat.sub_eq_zero_of_le (Nat.le_of_lt hlt)]
    rfl

/-- The first alternative path that holds an unsigned integer. -/
def read_alts (usage : Value) (alts : List (List String)) : Option UInt64 :=
  alts.findSome? fun p => (resolve_path usage p).as_u64

/-- Subtract a contained count from the input bucket when both are known. -/
def subtract_known (input part : Option UInt64) : Option UInt64 :=
  match input, part with
  | some i, some p => some (saturating_sub i p)
  | _, _ => input

/-- Build the buckets from an already located usage object. -/
def usage_from_obj (d : ProtocolDescriptor) (usage : Value) : TurnUsage :=
  let shape := d.usage_shape
  let u : TurnUsage := {
    input_tokens := read_alts usage shape.input
    output_tokens := read_alts usage shape.output
    cache_read_tokens := read_alts usage shape.cache_read
    cache_creation_tokens := read_alts usage shape.cache_write
    total_tokens := (usage.index "total_tokens").as_u64 }
  match d.usage_inclusion with
  | .inclusive =>
    let uncached := subtract_known u.input_tokens u.cache_read_tokens
    { u with input_tokens := subtract_known uncached u.cache_creation_tokens }
  | .exclusive => u

/-- Whether a usage frame's event gate admits a frame of this type. -/
def usage_frame_matches (uf : UsageFrame) (event : Option String) : Bool :=
  match uf.on_event, event with
  | some ev, some e => ev == e
  | none, _ => true
  | some _, none => false

/-- Usage carried by one stream frame. -/
def usage_from_sse_frame (d : ProtocolDescriptor) (v : Value) : Option TurnUsage :=
  let event := (v.index "type").as_str
  d.usage_frames.findSome? fun uf =>
    if usage_frame_matches uf event then
      let obj := resolve_path v uf.obj_path
      if obj.is_null then none else some (usage_from_obj d obj)
    else none

/-- Usage carried by a non-streaming response, always at the top level. -/
def usage_from_nonstreaming (d : ProtocolDescriptor) (resp : Value) : Option TurnUsage :=
  let obj := resolve_path resp ["usage"]
  if obj.is_null then none else some (usage_from_obj d obj)

end AgentTraceGateway
