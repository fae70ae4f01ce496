import AgentTraceGateway.Lib.Bytes
import AgentTraceGateway.Lib.Text
import Mathlib.Data.List.Basic

/-! # JSON Values

  The part of `serde_json` the gateway uses: the `Value` tree, the lookups
  that answer `Null` instead of failing, and the compact printer. Objects
  are `BTreeMap`s (the crate is built without `preserve_order`), so an
  object is a list of entries in key order and `insert` keeps it so.

  Parsing is not modelled: `serde_json::from_str` stays a parameter
  `from_str` of everything that reads text, and `from_slice` is the same
  parser behind a UTF-8 check.
-/

namespace AgentTraceGateway

/-- A JSON number as `serde_json` stores it. A float carries the text it
    prints as. -/
inductive Number where
  | pos_int (n : UInt64)
  | neg_int (i : Int)
  | float (text : String)
  deriving DecidableEq, Repr

/-- A JSON value. -/
inductive Value where
  | null
  | bool (b : Bool)
  | number (n : Number)
  | string (s : String)
  | array (items : List Value)
  | object (entries : List (String × Value))
  deriving Repr

namespace Value

/-! ### Lookups -/

/-- `v.get(key)`: the entry of an object, nothing for any other value. -/
def get (v : Value) (key : String) : Option Value :=
  match v with
  | .object entries => entries.lookup key
  | _ => none

/-- `v[key]`: a miss reads as `Null`. -/
def index (v : Value) (key : String) : Value := (v.get key).getD .null

/-- `v[i]` for an array index: a miss reads as `Null`. -/
def item (v : Value) (i : Nat) : Value :=
  match v with
  | .array items => (items[i]?).getD .null
  | _ => .null

def as_str : Value → Option String
  | .string s => some s
  | _ => none

def as_u64 : Value → Option UInt64
  | .number (.pos_int n) => some n
  | _ => none

def as_array : Value → Option (List Value)
  | .array items => some items
  | _ => none

def as_object : Value → Option (List (String × Value))
  | .object entries => some entries
  | _ => none

def is_null : Value → Bool
  | .null => true
  | _ => false

/-- `v == "text"`: comparison of a value with a string. -/
def is_str (v : Value) (s : String) : Bool := v.as_str == some s

@[simp] theorem index_null (key : String) : Value.null.index key = .null := rfl

@[simp] theorem as_str_null : Value.null.as_str = none := rfl

@[simp] theorem as_array_null : Value.null.as_array = none := rfl

/-! ### Building -/

/-- `BTreeMap::insert`: entries stay in key order, an equal key is replaced. -/
def insert (entries : List (String × Value)) (key : String) (v : Value) :
    List (String × Value) :=
  match entries with
  | [] => [(key, v)]
  | (k, w) :: rest =>
    if key < k then (key, v) :: (k, w) :: rest
    else if key = k then (key, v) :: rest
    else (k, w) :: insert rest key v

/-- `json!({ ... })`: the entries inserted one after the other. -/
def of_entries (entries : List (String × Value)) : Value :=
  .object (entries.foldl (fun acc e => insert acc e.1 e.2) [])

/-- One entry needs no sorting. -/
theorem of_entries_single (k : String) (v : Value) : of_entries [(k, v)] = .object [(k, v)] :=
  rfl

/-- Two entries given in key order stay so. -/
theorem of_entries_pair {k₁ k₂ : String} (hlt : ¬ k₂ < k₁) (hne : k₂ ≠ k₁) (v₁ v₂ : Value) :
    of_entries [(k₁, v₁), (k₂, v₂)] = .object [(k₁, v₁), (k₂, v₂)] := by
  simp only [of_entries, List.foldl_cons, List.foldl_nil, insert, if_neg hlt, if_neg hne]

/-! ### Printing -/

/-- The escape of one character inside a JSON string. -/
def escape_char (c : Char) : List Char :=
  if c = '"' then ['\\', '"']
  else if c = '\\' then ['\\', '\\']
  else if c = '\n' then ['\\', 'n']
  else if c = '\r' then ['\\', 'r']
  else if c = '\t' then ['\\', 't']
  else if c.toNat = 0x08 then ['\\', 'b']
  else if c.toNat = 0x0C then ['\\', 'f']
  else if c.toNat < 0x20 then
    ['\\', 'u', '0', '0', hex_digit (c.toNat / 16), hex_digit (c.toNat % 16)]
  else [c]

/-- A string literal: quotes around the escaped text. -/
def quote (s : String) : String :=
  "\"" ++ String.ofList (s.toList.flatMap escape_char) ++ "\""

def number_text : Number → String
  | .pos_int n => toString n.toNat
  | .neg_int i => toString i
  | .float text => text

mutual

/-- `Value::to_string`: the compact form, no white space. -/
def to_string : Value → String
  | .null => "null"
  | .bool true => "true"
  | .bool false => "false"
  | .number n => number_text n
  | .string s => quote s
  | .array items => "[" ++ items_text items ++ "]"
  | .object entries => "\x7b" ++ entries_text entries ++ "\x7d"

/-- Array items, comma separated. -/
def items_text : List Value → String
  | [] => ""
  | [v] => to_string v
  | v :: w :: rest => to_string v ++ "," ++ items_text (w :: rest)

/-- Object entries, comma separated. -/
def entries_text : List (String × Value) → String
  | [] => ""
  | [(k, v)] => quote k ++ ":" ++ to_string v
  | (k, v) :: e :: rest =>
    quote k ++ ":" ++ to_string v ++ "," ++ entries_text (e :: rest)

end

example : (of_entries [("b", .array [.null, .bool true]), ("a", .string "x\n")]).to_string
    = "\x7b\"a\":\"x\\n\",\"b\":[null,true]\x7d" := by decide

end Value

/-! ### Structures -/

/-- A derived `Serialize` of a structure: its fields in declaration order,
    each with its rendered value. -/
def struct_text (fields : List (String × String)) : String :=
  "\x7b" ++ Text.join "," (fields.map fun f => Value.quote f.1 ++ ":" ++ f.2) ++ "\x7d"

/-- A serialized sequence. -/
def seq_text (items : List String) : String := "[" ++ Text.join "," items ++ "]"

theorem items_text_eq : ∀ items : List Value,
    Value.items_text items = Text.join "," (items.map Value.to_string)
  | [] => rfl
  | [_] => rfl
  | v :: w :: rest => by
    have ih := items_text_eq (w :: rest)
    rw [Value.items_text, ih]
    rfl

theorem entries_text_eq : ∀ entries : List (String × Value),
    Value.entries_text entries
      = Text.join "," (entries.map fun e => Value.quote e.1 ++ ":" ++ e.2.to_string)
  | [] => rfl
  | [(_, _)] => rfl
  | (k, v) :: e :: rest => by
    have ih := entries_text_eq (e :: rest)
    rw [Value.entries_text, ih]
    rfl

/-- An array prints as the sequence of its items. -/
theorem array_to_string (items : List Value) :
    (Value.array items).to_string = seq_text (items.map Value.to_string) := by
  rw [Value.to_string, items_text_eq]
  rfl

/-- An object prints as a structure whose fields are declared in key
    order. -/
theorem object_to_string (entries : List (String × Value)) :
    (Value.object entries).to_string
      = struct_text (entries.map fun e => (e.1, e.2.to_string)) := by
  rw [Value.to_string, entries_text_eq, struct_text, List.map_map]
  rfl

/-- `serde_json::from_slice`: the text parser behind a UTF-8 check. -/
def from_slice (from_str : String → Option Value) (bs : Bytes) : Option Value :=
  (utf8_strict bs).bind fun t => from_str (String.ofList t)

end AgentTraceGateway
