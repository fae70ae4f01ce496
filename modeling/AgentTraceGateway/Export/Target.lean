import AgentTraceGateway.Export.Pool
import AgentTraceGateway.Lib.Bytes
import AgentTraceGateway.Lib.Text

/-! # The Export Target

  An export endpoint is a URL whose userinfo, if it has one, becomes a Basic
  authorization header. `apply_target` swaps the target, the enabled flag and
  the pool width at once; the exporter's own model takes the same operations
  one by one, and both end alike.

  The percent decoder slices a string at byte offsets and panics where a
  slice ends inside a character, so a target may fail to be built. The HTTP
  client, which is rebuilt with the target, is not modelled. -/

namespace AgentTraceGateway

/-! ### Userinfo -/

/-- The value of a hexadecimal digit. -/
def hex_value (b : UInt8) : Option UInt8 :=
  if 0x30 ≤ b && b ≤ 0x39 then some (b - 0x30)
  else if 0x41 ≤ b && b ≤ 0x46 then some (b - 0x41 + 10)
  else if 0x61 ≤ b && b ≤ 0x66 then some (b - 0x61 + 10)
  else none

/-- `u8::from_str_radix(_, 16)` on two bytes: a leading `+` is a sign. -/
def from_hex_pair (hi lo : UInt8) : Option UInt8 :=
  if hi = 0x2B then hex_value lo
  else (hex_value hi).bind fun h => (hex_value lo).map fun l => h * 16 + l

/-- The bytes start at a character boundary of their text. -/
def at_boundary (rest : Bytes) : Bool := !(rest.head?.any fun b => b &&& 0xC0 == 0x80)

/-- The decoding loop over the bytes of a text; `none` when the slice after a
    `%` ends inside a character. -/
def percent_decode_bytes : Bytes → Option Bytes
  | [] => some []
  | b :: rest =>
    if b = 0x25 then
      match rest with
      | hi :: lo :: tail =>
        if at_boundary tail then
          match from_hex_pair hi lo with
          | some v => (percent_decode_bytes tail).map (v :: ·)
          | none => (percent_decode_bytes (hi :: lo :: tail)).map (b :: ·)
        else none
      | short => (percent_decode_bytes short).map (b :: ·)
    else (percent_decode_bytes rest).map (b :: ·)

def percent_decode (s : String) : Option String :=
  (percent_decode_bytes (utf8_bytes s)).map fun out => String.ofList (utf8_lossy out)

/-- The standard base64 alphabet. -/
def base64_digit (n : Nat) : Char :=
  if n < 26 then Char.ofNat (0x41 + n)
  else if n < 52 then Char.ofNat (0x61 + (n - 26))
  else if n < 62 then Char.ofNat (0x30 + (n - 52))
  else if n = 62 then '+'
  else '/'

/-- `base64` with padding: four digits for three bytes. -/
def base64_chars : Bytes → List Char
  | a :: b :: c :: rest =>
    let n := a.toNat * 65536 + b.toNat * 256 + c.toNat
    base64_digit (n / 262144) :: base64_digit (n / 4096 % 64) :: base64_digit (n / 64 % 64)
      :: base64_digit (n % 64) :: base64_chars rest
  | [a, b] =>
    let n := a.toNat * 65536 + b.toNat * 256
    [base64_digit (n / 262144), base64_digit (n / 4096 % 64), base64_digit (n / 64 % 64), '=']
  | [a] =>
    let n := a.toNat * 65536
    [base64_digit (n / 262144), base64_digit (n / 4096 % 64), '=', '=']
  | [] => []

example : base64_chars [0x75, 0x3A, 0x70, 0x40] = "dTpwQA==".toList := by decide

/-- The endpoint without its userinfo, and the header the userinfo becomes;
    `none` when decoding panics. -/
def split_basic_auth (endpoint : String) : Option (String × Option String) :=
  match Text.split_once "://".toList endpoint.toList with
  | none => some (endpoint, none)
  | some (scheme, rest) =>
    match Text.split_once ['@'] rest with
    | none => some (endpoint, none)
    | some (creds, tail) =>
      if creds.all fun c => c != '/' && c != '?' && c != '#' then
        (percent_decode (String.ofList creds)).map fun decoded =>
          (String.ofList (scheme ++ "://".toList ++ tail),
            some ("Basic " ++ String.ofList (base64_chars (utf8_bytes decoded))))
      else some (endpoint, none)

/-! ### Targets -/

structure FlushTarget where
  endpoint : String
  auth_header : Option String
  deriving DecidableEq, Repr

/-- The target of an endpoint, none for a blank one. The outer `none` is a
    panic. -/
def build_target (endpoint : String) : Option (Option FlushTarget) :=
  if Text.is_blank endpoint then some none
  else (split_basic_auth endpoint).map fun (endpoint, auth_header) =>
    some { endpoint := endpoint, auth_header := auth_header }

/-- What a reload changes of an exporter. -/
structure Exporter where
  target : Option FlushTarget
  enabled : Bool
  max_inflight : UInt64
  sema_delta : Int64 := 0
  deriving DecidableEq, Repr

namespace Exporter

/-- `Exporter::start`; `Semaphore::new` panics beyond its limit. -/
def start (endpoint : String) (max_inflight : UInt64) : Option Exporter :=
  if MAX_PERMITS < (max max_inflight 1).toNat then none
  else (build_target endpoint).map fun target =>
    { target := target, enabled := target.isSome, max_inflight := max max_inflight 1 }

/-- Swap the target if it differs, then the flag and the width; the width's
    change is queued for the batcher. -/
def apply_target (e : Exporter) (endpoint : String) (max_inflight : UInt64) : Option Exporter :=
  (build_target endpoint).map fun new_target =>
    let changed :=
      match e.target, new_target with
      | some old, some new => old.endpoint != new.endpoint || old.auth_header != new.auth_header
      | none, some _ => true
      | some _, none => true
      | none, none => false
    let target := if changed then new_target else e.target
    let new_width := max max_inflight 1
    { target := target
      enabled := target.isSome
      max_inflight := new_width
      sema_delta := e.sema_delta + (new_width.toInt64 - e.max_inflight.toInt64) }

/-- Whether or not it counts as changed, the target is the new one. -/
theorem apply_target_eq {e : Exporter} {endpoint : String} {new_target : Option FlushTarget}
    (h : build_target endpoint = some new_target) (max_inflight : UInt64) :
    e.apply_target endpoint max_inflight = some
      { target := new_target
        enabled := new_target.isSome
        max_inflight := max max_inflight 1
        sema_delta := e.sema_delta + ((max max_inflight 1).toInt64 - e.max_inflight.toInt64) } := by
  unfold apply_target
  rw [h, Option.map_some]
  -- an unchanged target has the same endpoint and the same header
  have hsame : ∀ old new : FlushTarget,
      (old.endpoint != new.endpoint || old.auth_header != new.auth_header) = false → old = new := by
    intro old new hno
    obtain ⟨hendpoint, hauth⟩ := Bool.or_eq_false_iff.mp hno
    have h₁ : old.endpoint = new.endpoint := by simpa using hendpoint
    have h₂ : old.auth_header = new.auth_header := by simpa using hauth
    cases old
    cases new
    simp only at h₁ h₂
    rw [h₁, h₂]
  cases hold : e.target with
  | none => cases new_target <;> rfl
  | some old =>
    cases new_target with
    | none => rfl
    | some new =>
      dsimp only
      by_cases hchanged : (old.endpoint != new.endpoint || old.auth_header != new.auth_header) = true
      · rw [if_pos hchanged]
      · rw [if_neg hchanged, hsame old new (Bool.eq_false_iff.mpr hchanged)]

end Exporter

/-- The exporter's part of a pool. -/
def Pool.exporter {ρ : Type} (s : Pool ρ FlushTarget) : Exporter where
  target := s.target
  enabled := s.enabled
  max_inflight := s.max_inflight
  sema_delta := s.sema_delta

/-- A reload that no other operation comes between does to a pool what
    `apply_target` does to its exporter. -/
theorem apply_target_steps {ρ : Type} {s : Pool ρ FlushTarget} {endpoint : String}
    {new_target : Option FlushTarget} {max_inflight : UInt64}
    (h : build_target endpoint = some new_target)
    (hreload : s.reloads = [⟨new_target, max_inflight, .write⟩]) :
    ((((s.reload_step 0).bind (·.reload_step 0)).bind (·.reload_step 0)).bind
        (·.reload_step 0)).map Pool.exporter
      = s.exporter.apply_target endpoint max_inflight := by
  rw [Exporter.apply_target_eq h]
  simp [Pool.reload_step, hreload, Pool.exporter]

end AgentTraceGateway
